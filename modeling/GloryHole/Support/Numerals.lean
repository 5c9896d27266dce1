import Mathlib.Algebra.Order.Group.Nat
import Mathlib.Data.List.DropRight
import Mathlib.Tactic.Tauto

/-!
# The order of printed numbers

Numbers that are printed with the same number of digits compare as texts the way they compare as
numbers.  If one has fewer digits, it is compared with the leading digits of the other; where these
agree, the text that follows the shorter one is compared with a digit and decides.
-/

namespace GloryHole.Support.Numerals

variable {α : Type*} [LT α]

theorem append_lt_append_left_iff [Std.Irrefl ((· < ·) : α → α → Prop)] (p s t : List α) :
    p ++ s < p ++ t ↔ s < t := by
  induction p with
  | nil => rfl
  | cons x p ih => rw [List.cons_append, List.cons_append, List.cons_lt_cons_self, ih]

theorem lt_iff_div_mod (b u v : Nat) :
    u < v ↔ u / b < v / b ∨ (u / b = v / b ∧ u % b < v % b) := by
  have hu := Nat.div_add_mod u b
  have hv := Nat.div_add_mod v b
  constructor
  · intro h
    rcases Nat.lt_or_eq_of_le (Nat.div_le_div_right h.le) with hlt | heq
    · exact Or.inl hlt
    · rw [← hu, ← hv, heq] at h
      exact Or.inr ⟨heq, Nat.lt_of_add_lt_add_left h⟩
  · rintro (h | ⟨heq, hlt⟩)
    · exact Nat.lt_of_div_lt_div h
    · rw [← hu, ← hv, heq]
      exact Nat.add_lt_add_left hlt _

/-! ## Digits -/

structure Digits (digit : Nat → α) (b : Nat) : Prop where
  pos : 0 < b
  lt_iff : ∀ i < b, ∀ j < b, digit i < digit j ↔ i < j

/-- The last `k` digits of a number, the most significant one first. -/
def numeral {α : Type*} (digit : Nat → α) (b : Nat) : Nat → Nat → List α
  | 0, _ => []
  | k + 1, n => numeral digit b k (n / b) ++ [digit (n % b)]

variable {digit : Nat → α} {b : Nat}

theorem Digits.eq_iff (hd : Digits digit b) {i j : Nat} (hi : i < b) (hj : j < b) :
    digit i = digit j ↔ i = j := by
  constructor
  · intro h
    apply Nat.le_antisymm
    · apply Nat.le_of_not_lt
      rw [← hd.lt_iff j hj i hi, h, hd.lt_iff j hj j hj]
      exact lt_irrefl j
    · apply Nat.le_of_not_lt
      rw [← hd.lt_iff i hi j hj, h, hd.lt_iff j hj j hj]
      exact lt_irrefl j
  · intro h
    rw [h]

@[simp] theorem length_numeral {α : Type*} (digit : Nat → α) (b k n : Nat) :
    (numeral digit b k n).length = k := by
  induction k generalizing n with
  | zero => rfl
  | succ k ih => simp [numeral, ih]

theorem numeral_ne_nil {α : Type*} (digit : Nat → α) (b n : Nat) {k : Nat} (hk : 0 < k) :
    numeral digit b k n ≠ [] := by
  intro h
  have hlen := length_numeral digit b k n
  rw [h, List.length_nil] at hlen
  omega

theorem numeral_add {α : Type*} (digit : Nat → α) (b k m n : Nat) :
    numeral digit b (k + m) n = numeral digit b k (n / b ^ m) ++ numeral digit b m n := by
  induction m generalizing n with
  | zero => simp [numeral]
  | succ m ih =>
    calc numeral digit b (k + (m + 1)) n
        = numeral digit b (k + m) (n / b) ++ [digit (n % b)] := rfl
      _ = numeral digit b k (n / b / b ^ m) ++ numeral digit b m (n / b) ++ [digit (n % b)] := by
        rw [ih]
      _ = numeral digit b k (n / b ^ (m + 1)) ++ numeral digit b (m + 1) n := by
        rw [Nat.div_div_eq_div_mul, ← Nat.pow_succ', List.append_assoc]
        rfl

/-- Every symbol of a numeral is that of a digit. -/
theorem mem_numeral {α : Type*} {digit : Nat → α} {b : Nat} (hb : 0 < b) {k n : Nat} {x : α}
    (hx : x ∈ numeral digit b k n) : ∃ i < b, x = digit i := by
  induction k generalizing n with
  | zero => cases hx
  | succ k ih =>
    rcases List.mem_append.mp hx with hx | hx
    · exact ih hx
    · exact ⟨n % b, Nat.mod_lt _ hb, List.mem_singleton.mp hx⟩

section Compare

variable (hd : Digits digit b)

include hd

theorem div_lt_pow {k u : Nat} (hu : u < b ^ (k + 1)) : u / b < b ^ k := by
  rw [Nat.div_lt_iff_lt_mul hd.pos, ← Nat.pow_succ]
  exact hu

/-- Numbers of one width at the head of two texts. -/
theorem numeral_append_lt_iff {k u v : Nat} (hu : u < b ^ k) (hv : v < b ^ k) (s t : List α) :
    numeral digit b k u ++ s < numeral digit b k v ++ t ↔ u < v ∨ (u = v ∧ s < t) := by
  -- by induction on the width: the last digit joins the text that follows
  induction k generalizing u v s t with
  | zero =>
    rw [Nat.pow_zero, Nat.lt_one_iff] at hu hv
    simp [hu, hv, numeral]
  | succ k ih =>
    have hmod (n : Nat) : n % b < b := Nat.mod_lt n hd.pos
    rw [numeral, numeral, List.append_assoc, List.append_assoc,
      ih (div_lt_pow hd hu) (div_lt_pow hd hv), List.singleton_append, List.singleton_append,
      List.cons_lt_cons_iff, hd.lt_iff _ (hmod u) _ (hmod v), hd.eq_iff (hmod u) (hmod v),
      lt_iff_div_mod b u v, Nat.ext_div_mod_iff b u v]
    tauto

theorem numeral_lt_iff {k u v : Nat} (hu : u < b ^ k) (hv : v < b ^ k) :
    numeral digit b k u < numeral digit b k v ↔ u < v := by
  simpa using numeral_append_lt_iff hd hu hv [] []

end Compare

/-! ## Different widths -/

def Low (digit : Nat → α) (b : Nat) (s : List α) : Prop :=
  ∃ x rest, s = x :: rest ∧ ∀ i < b, x < digit i

def High (digit : Nat → α) (b : Nat) (s : List α) : Prop :=
  ∃ x rest, s = x :: rest ∧ ∀ i < b, digit i < x

/-- A numeral that is not empty begins with a digit. -/
theorem numeral_eq_cons {α : Type*} (digit : Nat → α) {b : Nat} (hb : 0 < b) {m : Nat}
    (hm : 0 < m) (v : Nat) : ∃ i < b, ∃ rest, numeral digit b m v = digit i :: rest := by
  obtain ⟨y, rest, hy⟩ := List.exists_cons_of_ne_nil (numeral_ne_nil digit b v hm)
  have hmem : y ∈ numeral digit b m v := by
    rw [hy]
    exact List.mem_cons_self
  obtain ⟨i, hi, rfl⟩ := mem_numeral hb hmem
  exact ⟨i, hi, rest, hy⟩

theorem Low.lt_numeral (hb : 0 < b) {s : List α} (hs : Low digit b s) {m : Nat} (hm : 0 < m)
    (v : Nat) (t : List α) : s < numeral digit b m v ++ t := by
  obtain ⟨x, rest, rfl, hx⟩ := hs
  obtain ⟨i, hi, ys, hy⟩ := numeral_eq_cons digit hb hm v
  rw [hy, List.cons_append, List.cons_lt_cons_iff]
  exact Or.inl (hx i hi)

theorem High.numeral_lt (hb : 0 < b) {s : List α} (hs : High digit b s) {m : Nat} (hm : 0 < m)
    (v : Nat) (t : List α) : numeral digit b m v ++ t < s := by
  obtain ⟨x, rest, rfl, hx⟩ := hs
  obtain ⟨i, hi, ys, hy⟩ := numeral_eq_cons digit hb hm v
  rw [hy, List.cons_append, List.cons_lt_cons_iff]
  exact Or.inl (hx i hi)

section Widths

variable [Std.Asymm ((· < ·) : α → α → Prop)] (hd : Digits digit b) {k m u v : Nat}
variable {s t : List α}

include hd

omit [Std.Asymm ((· < ·) : α → α → Prop)] in
theorem div_pow_lt (hv : v < b ^ (k + m)) : v / b ^ m < b ^ k := by
  rw [Nat.div_lt_iff_lt_mul (Nat.pow_pos hd.pos), ← Nat.pow_add]
  exact hv

omit [Std.Asymm ((· < ·) : α → α → Prop)] in
/-- The shorter number stands before a symbol below the digits. -/
theorem short_lt_of_low (hm : 0 < m) (hu : u < b ^ k) (hv : v < b ^ (k + m))
    (hs : Low digit b s) :
    numeral digit b k u ++ s < numeral digit b (k + m) v ++ t ↔ u * b ^ m ≤ v := by
  rw [numeral_add, List.append_assoc, numeral_append_lt_iff hd hu (div_pow_lt hd hv),
    ← Nat.le_div_iff_mul_le (Nat.pow_pos hd.pos), Nat.le_iff_lt_or_eq]
  simp [hs.lt_numeral hd.pos hm]

theorem long_lt_of_low (hm : 0 < m) (hu : u < b ^ k) (hv : v < b ^ (k + m))
    (hs : Low digit b s) :
    numeral digit b (k + m) v ++ t < numeral digit b k u ++ s ↔ v < u * b ^ m := by
  rw [numeral_add, List.append_assoc, numeral_append_lt_iff hd (div_pow_lt hd hv) hu,
    ← Nat.div_lt_iff_lt_mul (Nat.pow_pos hd.pos)]
  have hnot := List.lt_asymm (hs.lt_numeral hd.pos hm v t)
  simp [hnot]

/-- The shorter number stands before a symbol above the digits. -/
theorem short_lt_of_high (hm : 0 < m) (hu : u < b ^ k) (hv : v < b ^ (k + m))
    (hs : High digit b s) :
    numeral digit b k u ++ s < numeral digit b (k + m) v ++ t ↔ (u + 1) * b ^ m ≤ v := by
  rw [numeral_add, List.append_assoc, numeral_append_lt_iff hd hu (div_pow_lt hd hv),
    ← Nat.le_div_iff_mul_le (Nat.pow_pos hd.pos), Nat.succ_le_iff]
  have hnot := List.lt_asymm (hs.numeral_lt hd.pos hm v t)
  simp [hnot]

omit [Std.Asymm ((· < ·) : α → α → Prop)] in
theorem long_lt_of_high (hm : 0 < m) (hu : u < b ^ k) (hv : v < b ^ (k + m))
    (hs : High digit b s) :
    numeral digit b (k + m) v ++ t < numeral digit b k u ++ s ↔ v < (u + 1) * b ^ m := by
  rw [numeral_add, List.append_assoc, numeral_append_lt_iff hd (div_pow_lt hd hv) hu,
    ← Nat.div_lt_iff_lt_mul (Nat.pow_pos hd.pos), Nat.lt_succ_iff, Nat.le_iff_lt_or_eq]
  simp [hs.numeral_lt hd.pos hm]

end Widths

/-! ## The order of numbers of any width -/

/-- `u` with `k` digits comes before `v` with `l` digits if a number comes before its extensions:
the order of the fractions `0.u` and `0.v`, then that of the widths. -/
def ShortFirst (b k u l v : Nat) : Prop :=
  u * b ^ l < v * b ^ k ∨ (u * b ^ l = v * b ^ k ∧ k < l)

def ShortLast (b k u l v : Nat) : Prop :=
  if k ≤ l then (u + 1) * b ^ (l - k) ≤ v else u < (v + 1) * b ^ (k - l)

instance decidableShortFirst (b k u l v : Nat) : Decidable (ShortFirst b k u l v) :=
  inferInstanceAs (Decidable (_ ∨ _))

instance decidableShortLast (b k u l v : Nat) : Decidable (ShortLast b k u l v) :=
  inferInstanceAs (Decidable (if k ≤ l then _ else _))

theorem shortFirst_total {b k u l v : Nat} (hb : 0 < b) (hne : k = l → u ≠ v) :
    ShortFirst b k u l v ∨ ShortFirst b l v k u := by
  unfold ShortFirst
  have heq : u * b ^ l = v * b ^ k → k ≠ l := by
    rintro h rfl
    exact hne rfl (Nat.eq_of_mul_eq_mul_right (Nat.pow_pos hb) h)
  omega

theorem shortLast_total {b k u l v : Nat} (hne : k = l → u ≠ v) :
    ShortLast b k u l v ∨ ShortLast b l v k u := by
  unfold ShortLast
  rcases Nat.lt_trichotomy k l with hkl | rfl | hkl
  · rw [if_pos hkl.le, if_neg (Nat.not_le_of_lt hkl)]
    exact le_or_gt _ _
  · rw [if_pos le_rfl, if_pos le_rfl, Nat.sub_self, Nat.pow_zero, Nat.mul_one, Nat.mul_one]
    have := hne rfl
    omega
  · rw [if_neg (Nat.not_le_of_lt hkl), if_pos hkl.le]
    exact Nat.lt_or_ge _ _

section Any

variable [Std.Asymm ((· < ·) : α → α → Prop)] (hd : Digits digit b) {k l u v : Nat}
variable {s t : List α}

include hd

theorem numeral_lt_of_low (hu : u < b ^ k) (hv : v < b ^ l) (hne : k = l → u ≠ v)
    (hs : Low digit b s) (ht : Low digit b t) :
    numeral digit b k u ++ s < numeral digit b l v ++ t ↔ ShortFirst b k u l v := by
  unfold ShortFirst
  rcases Nat.lt_trichotomy k l with hkl | rfl | hkl
  · obtain ⟨m, rfl⟩ := Nat.exists_eq_add_of_le hkl.le
    have hm : 0 < m := by omega
    have hpos : 0 < b ^ k := Nat.pow_pos hd.pos
    rw [short_lt_of_low hd hm hu hv hs, Nat.pow_add, Nat.mul_comm (b ^ k),
      ← Nat.mul_assoc, Nat.mul_lt_mul_right hpos, Nat.mul_left_inj hpos.ne']
    omega
  · have hpos : 0 < b ^ k := Nat.pow_pos hd.pos
    rw [numeral_append_lt_iff hd hu hv, Nat.mul_lt_mul_right hpos]
    simp [hne rfl]
  · obtain ⟨m, rfl⟩ := Nat.exists_eq_add_of_le hkl.le
    have hm : 0 < m := by omega
    have hpos : 0 < b ^ l := Nat.pow_pos hd.pos
    rw [long_lt_of_low hd hm hv hu ht, Nat.pow_add, Nat.mul_comm (b ^ l),
      ← Nat.mul_assoc, Nat.mul_lt_mul_right hpos, Nat.mul_left_inj hpos.ne']
    omega

theorem numeral_lt_of_high (hu : u < b ^ k) (hv : v < b ^ l) (hne : k = l → u ≠ v)
    (hs : High digit b s) (ht : High digit b t) :
    numeral digit b k u ++ s < numeral digit b l v ++ t ↔ ShortLast b k u l v := by
  unfold ShortLast
  rcases Nat.lt_trichotomy k l with hkl | rfl | hkl
  · obtain ⟨m, rfl⟩ := Nat.exists_eq_add_of_le hkl.le
    have hm : 0 < m := by omega
    rw [short_lt_of_high hd hm hu hv hs, if_pos (Nat.le_add_right k _),
      Nat.add_sub_cancel_left]
  · rw [numeral_append_lt_iff hd hu hv, if_pos le_rfl, Nat.sub_self, Nat.pow_zero, Nat.mul_one]
    have := hne rfl
    omega
  · obtain ⟨m, rfl⟩ := Nat.exists_eq_add_of_le hkl.le
    have hm : 0 < m := by omega
    rw [long_lt_of_high hd hm hv hu ht, if_neg (by omega),
      Nat.add_sub_cancel_left]

end Any

/-! ## Trailing zeros -/

/-- How many of the last `k` digits are zeros at the end. -/
def trailing (b : Nat) : Nat → Nat → Nat
  | 0, _ => 0
  | k + 1, n => if n % b = 0 then trailing b k (n / b) + 1 else 0

theorem trailing_le (b k n : Nat) : trailing b k n ≤ k := by
  induction k generalizing n with
  | zero => exact le_rfl
  | succ k ih =>
    rw [trailing]
    split
    · exact Nat.succ_le_succ (ih _)
    · exact Nat.zero_le _

theorem pow_trailing_dvd (b k n : Nat) : b ^ trailing b k n ∣ n := by
  induction k generalizing n with
  | zero => exact Nat.one_dvd n
  | succ k ih =>
    rw [trailing]
    split
    case isTrue hzero =>
      rw [Nat.pow_succ, ← Nat.div_mul_cancel (Nat.dvd_of_mod_eq_zero hzero)]
      refine Nat.mul_dvd_mul_right ?_ b
      rw [Nat.div_mul_cancel (Nat.dvd_of_mod_eq_zero hzero)]
      exact ih _
    case isFalse => exact Nat.one_dvd n

theorem trailing_lt {b k n : Nat} (hn : 0 < n) (hlt : n < b ^ k) :
    trailing b k n < k := by
  apply Nat.lt_of_le_of_ne (trailing_le b k n)
  intro heq
  have hdvd := pow_trailing_dvd b k n
  rw [heq] at hdvd
  exact absurd hlt (Nat.not_lt_of_le (Nat.le_of_dvd hn hdvd))

/-- What is left of a numeral without its zeros at the end. -/
theorem rdropWhile_numeral {α : Type*} {digit : Nat → α} {b : Nat} {zero : α → Bool}
    (hb : 0 < b) (hzero : ∀ i < b, zero (digit i) = true ↔ i = 0) {pre : List α}
    (hpre : pre.rdropWhile zero = pre) (k n : Nat) :
    (pre ++ numeral digit b k n).rdropWhile zero =
      pre ++ numeral digit b (k - trailing b k n) (n / b ^ trailing b k n) := by
  induction k generalizing n with
  | zero => simpa [numeral, trailing] using hpre
  | succ k ih =>
    rw [numeral, ← List.append_assoc, List.rdropWhile_concat,
      if_congr (hzero _ (Nat.mod_lt n hb)) rfl rfl, trailing]
    split
    · rw [ih, Nat.add_sub_add_right, Nat.div_div_eq_div_mul, Nat.pow_succ, Nat.mul_comm b]
    · rw [List.append_assoc, Nat.sub_zero, Nat.pow_zero, Nat.div_one]
      rfl

theorem mul_pow_add (b z m v : Nat) : v * b ^ (z + m) = v * b ^ m * b ^ z := by
  rw [Nat.pow_add, Nat.mul_comm (b ^ z), Nat.mul_assoc]

theorem mul_pow_add_step (b z m v : Nat) :
    v * b ^ m * b ^ z + b ^ (z + m) = (v + 1) * b ^ m * b ^ z := by
  rw [← mul_pow_add, ← mul_pow_add, Nat.succ_mul]

section Trimmed

variable [Std.Asymm ((· < ·) : α → α → Prop)] (hd : Digits digit b) {s t : List α}

include hd

theorem Low.not_high (hs : Low digit b s) : ¬ High digit b s := by
  rintro ⟨y, rest', heq, hy⟩
  obtain ⟨x, rest, rfl, hx⟩ := hs
  rw [List.cons_eq_cons] at heq
  have hlt := hy 0 hd.pos
  rw [← heq.1] at hlt
  exact Std.Asymm.asymm _ _ (hx 0 hd.pos) hlt

/-- Different fractions of `w` digits, `z` and `z'` zeros at their ends not written.  The smaller
one is first unless it is the shorter one and its end is above the digits of the other. -/
theorem scaled_lt_iff {w z z' u v : Nat} (hz : z ≤ w) (hz' : z' ≤ w) (hu : u < b ^ (w - z))
    (hv : v < b ^ (w - z')) (hne : u * b ^ z ≠ v * b ^ z') (hs : Low digit b s ∨ High digit b s)
    (ht : Low digit b t ∨ High digit b t) :
    numeral digit b (w - z) u ++ s < numeral digit b (w - z') v ++ t ↔
      (u * b ^ z < v * b ^ z' ∧ ¬ (High digit b s ∧ v * b ^ z' < u * b ^ z + b ^ z)) ∨
        (v * b ^ z' < u * b ^ z ∧ High digit b t ∧ u * b ^ z < v * b ^ z' + b ^ z') := by
  rcases Nat.lt_trichotomy z z' with hlt | rfl | hlt
  · obtain ⟨m, rfl⟩ := Nat.exists_eq_add_of_le hlt.le
    have hm : 0 < m := by omega
    have hwidth : w - z = w - (z + m) + m := by omega
    have hpos : 0 < b ^ z := Nat.pow_pos hd.pos
    rw [hwidth] at hu ⊢
    rw [mul_pow_add] at hne ⊢
    simp only [mul_pow_add_step, Nat.mul_lt_mul_right hpos, ← Nat.succ_mul]
    rw [Ne, Nat.mul_left_inj hpos.ne'] at hne
    have hle : v * b ^ m ≤ (v + 1) * b ^ m := Nat.mul_le_mul_right _ (Nat.le_succ v)
    -- A smaller `u` is a whole step below, so its own end does not matter.
    have hs' : u < v * b ^ m → ¬ (High digit b s ∧ v * b ^ m < u.succ) := by
      intro hlt hand
      omega
    rcases ht with hlow | hhigh
    · rw [long_lt_of_low hd hm hv hu hlow, and_iff_left_of_imp hs']
      simp only [hlow.not_high hd, false_and, and_false, or_false]
    · rw [long_lt_of_high hd hm hv hu hhigh, and_iff_left_of_imp hs']
      simp only [hhigh, true_and]
      omega
  · have hpos : 0 < b ^ z := Nat.pow_pos hd.pos
    simp only [numeral_append_lt_iff hd hu hv, Nat.mul_lt_mul_right hpos, ← Nat.succ_mul]
    rw [Ne, Nat.mul_left_inj hpos.ne'] at hne
    omega
  · obtain ⟨m, rfl⟩ := Nat.exists_eq_add_of_le hlt.le
    have hm : 0 < m := by omega
    have hwidth : w - z' = w - (z' + m) + m := by omega
    have hpos : 0 < b ^ z' := Nat.pow_pos hd.pos
    rw [hwidth] at hv ⊢
    rw [mul_pow_add] at hne ⊢
    simp only [mul_pow_add_step, Nat.mul_lt_mul_right hpos, ← Nat.succ_mul]
    rw [Ne, Nat.mul_left_inj hpos.ne'] at hne
    have hle : u * b ^ m ≤ (u + 1) * b ^ m := Nat.mul_le_mul_right _ (Nat.le_succ u)
    have ht' : ¬ (v < u * b ^ m ∧ High digit b t ∧ u * b ^ m < v.succ) := by
      intro hand
      omega
    rw [or_iff_left ht']
    rcases hs with hlow | hhigh
    · rw [short_lt_of_low hd hm hu hv hlow]
      simp only [hlow.not_high hd, false_and, not_false_eq_true, and_true]
      omega
    · rw [short_lt_of_high hd hm hu hv hhigh]
      simp only [hhigh, true_and]
      omega

end Trimmed

end GloryHole.Support.Numerals
