import Mathlib

/-!
# Leading bits of byte strings

The bits of a string of bytes, the most significant first, and masks of leading ones.  Two
strings agree under a mask of `n` ones exactly if their first `n` bits agree.
-/

namespace GloryHole.Support.Bits

def byteBits (b : UInt8) : List Bool := (List.range 8).map b.toBitVec.getMsbD

def bits (bs : List UInt8) : List Bool := bs.flatMap byteBits

def leadingOnes (n : Nat) : UInt8 := if 8 ≤ n then 0xff else ~~~(0xff >>> UInt8.ofNat n)

def onesMask : (length n : Nat) → List UInt8
  | 0, _ => []
  | length + 1, n => leadingOnes n :: onesMask length (n - 8)

def masked (bs mask : List UInt8) : List UInt8 := List.zipWith (· &&& ·) bs mask

@[simp] theorem length_byteBits (b : UInt8) : (byteBits b).length = 8 := by
  simp [byteBits]

@[simp] theorem bits_cons (b : UInt8) (bs : List UInt8) : bits (b :: bs) = byteBits b ++ bits bs :=
  rfl

@[simp] theorem length_onesMask (length n : Nat) : (onesMask length n).length = length := by
  induction length generalizing n with
  | zero => rfl
  | succ length ih => simp [onesMask, ih]

@[simp] theorem length_bits (bs : List UInt8) : (bits bs).length = 8 * bs.length := by
  induction bs with
  | nil => rfl
  | cons b bs ih =>
    rw [bits_cons, List.length_append, length_byteBits, ih, List.length_cons]
    omega

theorem getMsbD_leadingOnes {n i : Nat} (hn : n ≤ 8) (hi : i < 8) :
    (leadingOnes n).toBitVec.getMsbD i = decide (i < n) := by
  have hall : ∀ n < 9, ∀ i < 8, (leadingOnes n).toBitVec.getMsbD i = decide (i < n) := by
    decide
  exact hall n (by omega) i hi

/-- Two bytes agree under `n` leading ones if their first `n` bits agree. -/
theorem and_leadingOnes_iff {a b : UInt8} {n : Nat} (hn : n ≤ 8) :
    a &&& leadingOnes n = b &&& leadingOnes n ↔ (byteBits a).take n = (byteBits b).take n := by
  have hand (x : UInt8) (i : Nat) (hi : i < 8) :
      (x &&& leadingOnes n).toBitVec.getMsbD i = (x.toBitVec.getMsbD i && decide (i < n)) := by
    rw [UInt8.toBitVec_and, BitVec.getMsbD_and, getMsbD_leadingOnes hn hi]
  have htake (x : UInt8) : (byteBits x).take n = (List.range n).map x.toBitVec.getMsbD := by
    rw [byteBits, ← List.map_take, List.take_range, Nat.min_eq_left hn]
  rw [htake, htake, List.map_inj_left]
  constructor
  · intro h i hi
    have hi : i < n := List.mem_range.mp hi
    have hbit := congrArg (fun x : UInt8 => x.toBitVec.getMsbD i) h
    simp only [hand _ i (by omega), hi, decide_true, Bool.and_true] at hbit
    exact hbit
  · intro h
    apply UInt8.toBitVec_inj.mp
    apply BitVec.eq_of_getMsbD_eq
    intro i hi
    rw [hand a i hi, hand b i hi]
    by_cases hin : i < n
    · rw [h i (List.mem_range.mpr hin)]
    · simp [hin]

theorem leadingOnes_of_le {n : Nat} (hn : 8 ≤ n) : leadingOnes n = leadingOnes 8 := by
  simp [leadingOnes, hn]

theorem masked_onesMask_iff {as bs : List UInt8} {length : Nat} (n : Nat)
    (ha : as.length = length) (hb : bs.length = length) :
    masked as (onesMask length n) = masked bs (onesMask length n) ↔
      (bits as).take n = (bits bs).take n := by
  induction length generalizing as bs n with
  | zero =>
    rw [List.length_eq_zero_iff] at ha hb
    subst ha hb
    simp
  | succ length ih =>
    obtain ⟨a, as, rfl⟩ := List.exists_cons_of_length_eq_add_one ha
    obtain ⟨b, bs, rfl⟩ := List.exists_cons_of_length_eq_add_one hb
    have hrest := @ih as bs (n - 8) (by simpa using ha) (by simpa using hb)
    have hhead : a &&& leadingOnes n = b &&& leadingOnes n ↔
        (byteBits a).take n = (byteBits b).take n := by
      rcases Nat.le_total n 8 with hn | hn
      · exact and_leadingOnes_iff hn
      · have hall (x : UInt8) : (byteBits x).take n = (byteBits x).take 8 := by
          rw [List.take_of_length_le (by simpa using hn), List.take_of_length_le (by simp)]
        rw [leadingOnes_of_le hn, hall, hall]
        exact and_leadingOnes_iff (le_refl 8)
    rw [masked, masked] at hrest ⊢
    rw [onesMask, List.zipWith_cons_cons, List.zipWith_cons_cons, List.cons.injEq, hrest, hhead,
      bits_cons, bits_cons, List.take_append, List.take_append, length_byteBits,
      length_byteBits]
    constructor
    · rintro ⟨h₁, h₂⟩
      rw [h₁, h₂]
    · intro h
      exact List.append_inj h (by simp)

/-! ## Parts of a mask -/

@[simp] theorem length_masked (bs mask : List UInt8) :
    (masked bs mask).length = min bs.length mask.length :=
  List.length_zipWith

theorem masked_masked (bs mask : List UInt8) : masked (masked bs mask) mask = masked bs mask := by
  induction bs generalizing mask with
  | nil => rfl
  | cons b bs ih =>
    cases mask with
    | nil => rfl
    | cons m mask =>
      have hbyte : b &&& m &&& m = b &&& m := by rw [UInt8.and_assoc, UInt8.and_self]
      have hrest : masked (masked bs mask) mask = masked bs mask := ih mask
      simp only [masked, List.zipWith_cons_cons, hbyte] at hrest ⊢
      rw [hrest]

theorem masked_take (bs mask : List UInt8) (k : Nat) :
    (masked bs mask).take k = masked (bs.take k) (mask.take k) :=
  List.take_zipWith

theorem masked_drop (bs mask : List UInt8) (k : Nat) :
    (masked bs mask).drop k = masked (bs.drop k) (mask.drop k) :=
  List.drop_zipWith

theorem drop_onesMask (k length n : Nat) :
    (onesMask (k + length) n).drop k = onesMask length (n - 8 * k) := by
  induction k generalizing n with
  | zero => simp
  | succ k ih =>
    rw [Nat.add_right_comm, onesMask, List.drop_succ_cons, ih]
    congr 1
    omega

theorem take_onesMask (k length n : Nat) : (onesMask (k + length) n).take k = onesMask k n := by
  induction k generalizing n with
  | zero => rfl
  | succ k ih => rw [Nat.add_right_comm, onesMask, List.take_succ_cons, ih, onesMask]

theorem masked_onesMask_of_le {bs : List UInt8} {n : Nat} (hn : 8 * bs.length ≤ n) :
    masked bs (onesMask bs.length n) = bs := by
  induction bs generalizing n with
  | nil => rfl
  | cons b bs ih =>
    rw [List.length_cons] at hn ⊢
    have hones : leadingOnes n = -1 := by
      rw [leadingOnes, if_pos (by omega)]
      rfl
    have hrest : masked bs (onesMask bs.length (n - 8)) = bs := ih (by omega)
    rw [masked] at hrest ⊢
    rw [onesMask, List.zipWith_cons_cons, hones, UInt8.and_neg_one, hrest]

theorem bits_inj {as bs : List UInt8} : bits as = bits bs ↔ as = bs := by
  constructor
  · intro h
    have hlength : as.length = bs.length := by
      have hbits := congrArg List.length h
      rw [length_bits, length_bits] at hbits
      omega
    have hmasked := (masked_onesMask_iff (8 * bs.length) hlength rfl).mpr (by rw [h])
    rw [masked_onesMask_of_le (le_refl _)] at hmasked
    rw [← hmasked, ← hlength, masked_onesMask_of_le (le_refl _)]
  · intro h
    rw [h]

end GloryHole.Support.Bits
