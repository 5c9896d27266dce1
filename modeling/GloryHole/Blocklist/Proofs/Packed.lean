import GloryHole.Blocklist.FlatList

/-!
# Searching the packed encoding

`pack` is the packing of a list of names with their masks.  The search compares
with the part of a stored name before its first NUL byte, its visible part; on
names in increasing order it finds the first one whose visible part is the target.
-/

namespace GloryHole.Blocklist

open Go FlatBlocklist

def pack (entries : List (GoString × UInt64)) : FlatBlocklist :=
  entries.foldl (fun f e => f.appendEntry e.1 e.2) {}

def packedSize (names : List GoString) : Nat := (names.map fun d => d.length + 1).sum

def visible (name : GoString) : GoString := name.takeWhile (· != 0)

theorem visible_eq_self {name : GoString} (hnul : (0 : UInt8) ∉ name) :
    visible name = name := by
  refine List.takeWhile_eq_self_iff.mpr ?_
  intro b hb
  simp only [bne_iff_ne, ne_eq]
  rintro rfl
  exact hnul hb

theorem visible_append_nul (name rest : GoString) :
    visible (name ++ 0 :: rest) = visible name := by
  induction name with
  | nil => simp [visible]
  | cons b name ih =>
    simp only [visible, List.cons_append, List.takeWhile_cons] at ih ⊢
    split <;> simp [ih]

/-- NUL is the least byte, so cutting at it keeps the order. -/
theorem visible_mono : ∀ {a b : GoString}, a ≤ b → visible a ≤ visible b
  | [], _, _ => List.nil_le _
  | x :: a, [], h => absurd h (by simp)
  | x :: a, y :: b, h => by
      by_cases hx : x = 0
      · simp [visible, hx]
      · rcases List.cons_le_cons_iff.mp h with hlt | ⟨rfl, htail⟩
        · have hy : y ≠ 0 := by
            rintro rfl
            exact absurd hlt (by simp)
          simp only [visible, List.takeWhile_cons, bne_iff_ne, ne_eq, hx, hy,
            not_false_eq_true, if_true]
          exact List.cons_le_cons_iff.mpr (Or.inl hlt)
        · have ih := visible_mono htail
          simp only [visible, List.takeWhile_cons, bne_iff_ne, ne_eq, hx,
            not_false_eq_true, if_true] at ih ⊢
          exact List.cons_le_cons_iff.mpr (Or.inr ⟨rfl, ih⟩)

/-! ## The comparison -/

theorem drop_step {data : List UInt8} {pos : Nat} {b : UInt8} {rest : List UInt8}
    (hdrop : data.drop pos = b :: rest) :
    data[pos]? = some b ∧ data.drop (pos + 1) = rest := by
  constructor
  · rw [← List.head?_drop, hdrop, List.head?_cons]
  · rw [← List.tail_drop, hdrop, List.tail_cons]

/-- The sign of the comparison is the order of the visible part and the target. -/
theorem cmpFrom_spec (data : List UInt8) (target : GoString) (pos : Nat) :
    (0 ≤ cmpFrom data pos target ↔ target ≤ visible (data.drop pos)) ∧
      (cmpFrom data pos target = 0 ↔ visible (data.drop pos) = target) := by
  induction target generalizing pos with
  | nil =>
    cases hdrop : data.drop pos with
    | nil =>
      have hnone : data[pos]? = none := by rw [← List.head?_drop, hdrop]; rfl
      simp [cmpFrom, hnone, visible]
    | cons b rest =>
      have hsome := (drop_step hdrop).1
      by_cases hb : b = 0 <;> simp [cmpFrom, hsome, visible, hb]
  | cons t target ih =>
    cases hdrop : data.drop pos with
    | nil =>
      have hnone : data[pos]? = none := by rw [← List.head?_drop, hdrop]; rfl
      simp [cmpFrom, hnone, visible]
    | cons b rest =>
      obtain ⟨hsome, hrest⟩ := drop_step hdrop
      by_cases hb : b = 0
      · simp [cmpFrom, hsome, visible, hb]
      · by_cases hbt : b = t
        · subst hbt
          have ih := ih (pos + 1)
          rw [hrest] at ih
          simp only [cmpFrom, hsome, hb, if_false, ne_eq, not_true_eq_false]
          simp only [visible, List.takeWhile_cons, bne_iff_ne, ne_eq, hb,
            not_false_eq_true, if_true, List.cons_le_cons_iff, List.cons.injEq,
            true_and, UInt8.lt_irrefl, false_or] at ih ⊢
          exact ih
        · have htb : t < b ↔ ¬ b < t := by
            constructor
            · exact fun h => UInt8.lt_asymm h
            · intro h
              exact UInt8.lt_of_le_of_ne (UInt8.not_lt.mp h) (Ne.symm hbt)
          by_cases hlt : b < t <;>
            simp [cmpFrom, hsome, visible, hb, hbt, Ne.symm hbt, hlt, htb,
              List.cons_le_cons_iff]

/-! ## The layout -/

def offsets : Nat → List GoString → List UInt32
  | _, [] => []
  | pos, d :: ds => UInt32.ofNat pos :: offsets (pos + d.length + 1) ds

def bytes (names : List GoString) : List UInt8 := names.flatMap fun d => d ++ [0]

theorem length_bytes (names : List GoString) : (bytes names).length = packedSize names := by
  induction names with
  | nil => rfl
  | cons d ds ih =>
    simp only [bytes, packedSize, List.flatMap_cons, List.length_append, List.map_cons,
      List.sum_cons, List.length_cons, List.length_nil] at ih ⊢
    omega

theorem foldl_appendEntry (entries : List (GoString × UInt64)) (f : FlatBlocklist) :
    entries.foldl (fun f e => f.appendEntry e.1 e.2) f =
      { data := f.data ++ bytes (entries.map (·.1))
        offs := f.offs ++ offsets f.data.length (entries.map (·.1))
        masks := f.masks ++ entries.map (·.2) } := by
  induction entries generalizing f with
  | nil => simp [bytes, offsets]
  | cons e entries ih =>
    rw [List.foldl_cons, ih]
    simp [appendEntry, bytes, offsets, Nat.add_assoc]

theorem pack_eq (entries : List (GoString × UInt64)) :
    pack entries =
      { data := bytes (entries.map (·.1))
        offs := offsets 0 (entries.map (·.1))
        masks := entries.map (·.2) } := by
  simpa [pack] using foldl_appendEntry entries {}

theorem length_offsets (pos : Nat) (names : List GoString) :
    (offsets pos names).length = names.length := by
  induction names generalizing pos with
  | nil => rfl
  | cons d ds ih => simp [offsets, ih]

theorem offsets_getElem? (pos : Nat) (names : List GoString) {i : Nat}
    (hi : i < names.length) :
    (offsets pos names)[i]? = some (UInt32.ofNat (pos + packedSize (names.take i))) := by
  induction names generalizing pos i with
  | nil => simp at hi
  | cons d ds ih =>
    cases i with
    | zero => simp [offsets, packedSize]
    | succ i =>
      have hi' : i < ds.length := by simpa using hi
      simp only [offsets, List.getElem?_cons_succ, ih _ hi', List.take_succ_cons,
        packedSize, List.map_cons, List.sum_cons]
      congr 2
      omega

theorem packedSize_take_le (names : List GoString) (i : Nat) :
    packedSize (names.take i) ≤ packedSize names := by
  induction names generalizing i with
  | nil => simp
  | cons d ds ih =>
    cases i with
    | zero => simp [packedSize]
    | succ i =>
      have := ih i
      simp only [packedSize, List.take_succ_cons, List.map_cons, List.sum_cons] at this ⊢
      omega

theorem packedSize_dropLast_le (names : List GoString) :
    packedSize names.dropLast ≤ packedSize names := by
  rw [List.dropLast_eq_take]
  exact packedSize_take_le names _

theorem bytes_drop (names : List GoString) {i : Nat} (hi : i < names.length) :
    (bytes names).drop (packedSize (names.take i)) =
      names[i] ++ 0 :: bytes (names.drop (i + 1)) := by
  induction names generalizing i with
  | nil => simp at hi
  | cons d ds ih =>
    cases i with
    | zero => simp [packedSize, bytes]
    | succ i =>
      have hi' : i < ds.length := by simpa using hi
      have hlen : packedSize ((d :: ds).take (i + 1)) =
          (d ++ [0]).length + packedSize (ds.take i) := by simp [packedSize]
      have hsplit : bytes (d :: ds) = (d ++ [0]) ++ bytes ds := by simp [bytes]
      rw [hlen, hsplit, List.drop_length_add_append, ih hi']
      simp

section Search

variable {entries : List (GoString × UInt64)}
  (hsize : packedSize (entries.map (·.1)).dropLast < 2 ^ 32)

include hsize

theorem start_pack {i : Nat} (hi : i < entries.length) :
    (pack entries).start i = packedSize ((entries.map (·.1)).take i) := by
  have hi' : i < (entries.map (·.1)).length := by simpa using hi
  have hle := packedSize_take_le (entries.map (·.1)).dropLast i
  rw [List.dropLast_eq_take, List.take_take, Nat.min_eq_left (by omega),
    ← List.dropLast_eq_take] at hle
  simp only [start, pack_eq, offsets_getElem? 0 _ hi', Nat.zero_add, Option.getD_some]
  exact UInt32.toNat_ofNat_of_lt (Nat.lt_of_le_of_lt hle hsize)

theorem visible_at_start {i : Nat} (hi : i < entries.length) :
    visible ((pack entries).data.drop ((pack entries).start i)) = visible entries[i].1 := by
  have hi' : i < (entries.map (·.1)).length := by simpa using hi
  rw [start_pack hsize hi, pack_eq]
  simp only
  rw [bytes_drop _ hi', visible_append_nul, List.getElem_map]

/-- The search finds the first name whose visible part is the target. -/
theorem lookup_pack (hsorted : (entries.map (·.1)).Pairwise (· < ·)) (d : GoString) :
    (pack entries).lookup d = (entries.find? fun e => visible e.1 == d).map (·.2) := by
  have hlen : (pack entries).len = entries.length := by
    rw [pack_eq]
    simp [FlatBlocklist.len, length_offsets]
  have hcmp : ∀ i (hi : i < entries.length),
      (0 ≤ (pack entries).cmpDomainAt i d ↔ d ≤ visible entries[i].1) ∧
        ((pack entries).cmpDomainAt i d = 0 ↔ visible entries[i].1 = d) := by
    intro i hi
    rw [← visible_at_start hsize hi]
    exact cmpFrom_spec _ d _
  have hmono : ∀ i j (hij : i ≤ j) (hj : j < entries.length),
      visible entries[i].1 ≤ visible entries[j].1 := by
    intro i j hij hj
    rcases Nat.eq_or_lt_of_le hij with rfl | hlt
    · exact List.le_refl _
    · have := List.pairwise_iff_getElem.mp hsorted i j (by simp; omega) (by simpa using hj) hlt
      exact visible_mono (List.le_of_lt (by simpa using this))
  obtain ⟨-, hbelow, habove⟩ := search_spec (n := entries.length)
    (f := fun i => decide ((pack entries).cmpDomainAt i d ≥ 0)) (by
      intro i j hij hj hi
      simp only [ge_iff_le, decide_eq_true_eq] at hi ⊢
      rw [(hcmp j hj).1]
      exact List.le_trans ((hcmp i (by omega)).1.mp hi) (hmono i j hij hj))
  rw [FlatBlocklist.lookup, hlen]
  simp only
  generalize search entries.length _ = idx at hbelow habove ⊢
  have hlow : ∀ k (hk : k < entries.length), k < idx → visible entries[k].1 ≠ d := by
    intro k hk hkidx heq
    have hfalse : ¬ 0 ≤ (pack entries).cmpDomainAt k d := by simpa using hbelow k hkidx
    exact hfalse ((hcmp k hk).1.mpr (heq ▸ List.le_refl _))
  by_cases hfound : idx < entries.length ∧ (pack entries).cmpDomainAt idx d = 0
  · obtain ⟨hidx, hzero⟩ := hfound
    have hfind : entries.find? (fun e => visible e.1 == d) = some entries[idx] := by
      refine List.find?_eq_some_iff_getElem.mpr ⟨?_, idx, hidx, rfl, ?_⟩
      · simpa using (hcmp idx hidx).2.mp hzero
      · intro k hk
        simpa using hlow k (by omega) hk
    rw [if_neg (by omega), if_pos ⟨hidx, hzero⟩, hfind, pack_eq]
    simp [hidx]
  · have hfind : entries.find? (fun e => visible e.1 == d) = none := by
      refine List.find?_eq_none.mpr ?_
      intro e he hvis
      obtain ⟨k, hk, rfl⟩ := List.mem_iff_getElem.mp he
      have hvis : visible entries[k].1 = d := by simpa using hvis
      by_cases hkidx : k < idx
      · exact hlow k hk hkidx hvis
      · -- the name at `idx` lies between the target and an equal one
        have hidx : idx < entries.length := by omega
        have hle : d ≤ visible entries[idx].1 :=
          (hcmp idx hidx).1.mp (by simpa using habove idx (Nat.le_refl _) hidx)
        have hge := hmono idx k (by omega) hk
        rw [hvis] at hge
        exact hfound ⟨hidx, (hcmp idx hidx).2.mpr (List.le_antisymm hge hle)⟩
    rw [hfind, if_neg hfound]
    simp

end Search

/-- The name read back is the visible part of the name stored. -/
theorem domainAt_pack {entries : List (GoString × UInt64)}
    (hsize : packedSize (entries.map (·.1)) < 2 ^ 32) {i : Nat} (hi : i < entries.length) :
    (pack entries).domainAt i = visible entries[i].1 := by
  have hlen : (pack entries).data.length < 2 ^ 32 := by
    rw [pack_eq]
    simpa [length_bytes] using hsize
  rw [domainAt, Nat.mod_eq_of_lt hlen, List.take_length]
  exact visible_at_start ((packedSize_dropLast_le _).trans_lt hsize) hi

end GloryHole.Blocklist
