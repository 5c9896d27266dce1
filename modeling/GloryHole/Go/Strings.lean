import Mathlib

/-!
# Go strings and errors

A Go string is a sequence of bytes.  The functions here are the ones of the
`strings` package the program calls, under their Go names, on `List UInt8`; they
follow the package on every byte sequence, valid UTF-8 or not.
-/

namespace GloryHole.Go

/-- A Go string: any sequence of bytes. -/
abbrev GoString := List UInt8

instance : LawfulBEq GoString := inferInstanceAs (LawfulBEq (List UInt8))

def lit (s : String) : GoString := s.toList.map fun c => UInt8.ofNat c.toNat

def byte (c : Char) : UInt8 := UInt8.ofNat c.toNat

def hasPrefix (s pre : GoString) : Bool := pre.isPrefixOf s

def hasSuffix (s suf : GoString) : Bool := suf.isSuffixOf s

def trimPrefix (s pre : GoString) : GoString :=
  if hasPrefix s pre then s.drop pre.length else s

def trimSuffix (s suf : GoString) : GoString :=
  if hasSuffix s suf then s.take (s.length - suf.length) else s

def containsByte (s : GoString) (b : UInt8) : Bool := s.contains b

def contains (s sub : GoString) : Bool := s.tails.any fun t => sub.isPrefixOf t

def indexByte (s : GoString) (b : UInt8) : Option Nat := s.findIdx? (· == b)

def lastIndexByte (s : GoString) (b : UInt8) : Option Nat :=
  (s.reverse.findIdx? (· == b)).map fun i => s.length - 1 - i

/-- `strings.Split` at a one-byte separator: one piece more than separators. -/
def splitByte (b : UInt8) : GoString → List GoString
  | [] => [[]]
  | c :: rest =>
    if c = b then [] :: splitByte b rest
    else
      match splitByte b rest with
      | [] => [[c]]
      | piece :: pieces => (c :: piece) :: pieces

def join (sep : GoString) : List GoString → GoString
  | [] => []
  | [s] => s
  | s :: rest => s ++ sep ++ join sep rest

theorem indexByte_eq_none {s : GoString} {b : UInt8} : indexByte s b = none ↔ b ∉ s := by
  simp only [indexByte, List.findIdx?_eq_none_iff, beq_eq_false_iff_ne]
  exact ⟨fun h hb => h b hb rfl, fun h x hx heq => h (heq ▸ hx)⟩

/-- The string around its first byte `b`. -/
theorem eq_of_indexByte {s : GoString} {b : UInt8} {i : Nat} (h : indexByte s b = some i) :
    s = s.take i ++ b :: s.drop (i + 1) ∧ b ∉ s.take i ∧ i < s.length := by
  obtain ⟨hi, hb, hbefore⟩ := List.findIdx?_eq_some_iff_getElem.mp h
  have hb : s[i] = b := by simpa using hb
  refine ⟨?_, ?_, hi⟩
  · rw [← hb, List.getElem_cons_drop, List.take_append_drop]
  · intro hmem
    obtain ⟨j, hj, hjb⟩ := List.mem_take_iff_getElem.mp hmem
    have := hbefore j (by omega)
    simp [hjb] at this

/-! ## White space -/

/-- The UTF-8 encodings of the characters `unicode.IsSpace` accepts.  No one of them
occurs across the boundary of two runes, so they can be looked for bytewise. -/
def spaceRunes : List GoString :=
  [[0x09], [0x0A], [0x0B], [0x0C], [0x0D], [0x20], [0xC2, 0x85], [0xC2, 0xA0],
    [0xE1, 0x9A, 0x80],
    [0xE2, 0x80, 0x80], [0xE2, 0x80, 0x81], [0xE2, 0x80, 0x82], [0xE2, 0x80, 0x83],
    [0xE2, 0x80, 0x84], [0xE2, 0x80, 0x85], [0xE2, 0x80, 0x86], [0xE2, 0x80, 0x87],
    [0xE2, 0x80, 0x88], [0xE2, 0x80, 0x89], [0xE2, 0x80, 0x8A],
    [0xE2, 0x80, 0xA8], [0xE2, 0x80, 0xA9], [0xE2, 0x80, 0xAF], [0xE2, 0x81, 0x9F],
    [0xE3, 0x80, 0x80]]

def leadingSpace (s : GoString) : Option GoString := spaceRunes.find? (·.isPrefixOf s)

def trailingSpace (s : GoString) : Option GoString := spaceRunes.find? (·.isSuffixOf s)

/-- Every round drops at least one byte, so the length of `s` bounds the rounds. -/
def trimLeftSpace : Nat → GoString → GoString
  | 0, s => s
  | fuel + 1, s =>
    match leadingSpace s with
    | some r => trimLeftSpace fuel (s.drop r.length)
    | none => s

def trimRightSpace : Nat → GoString → GoString
  | 0, s => s
  | fuel + 1, s =>
    match trailingSpace s with
    | some r => trimRightSpace fuel (s.take (s.length - r.length))
    | none => s

def trimSpace (s : GoString) : GoString :=
  let t := trimLeftSpace s.length s
  trimRightSpace t.length t

def fieldsLoop : Nat → GoString → GoString → List GoString
  | 0, field, _ => if field = [] then [] else [field]
  | _ + 1, field, [] => if field = [] then [] else [field]
  | fuel + 1, field, b :: rest =>
    match leadingSpace (b :: rest) with
    | some r =>
      let tail := fieldsLoop fuel [] ((b :: rest).drop r.length)
      if field = [] then tail else field :: tail
    | none => fieldsLoop fuel (field ++ [b]) rest

def fields (s : GoString) : List GoString := fieldsLoop s.length [] s

theorem length_trimLeftSpace_le (fuel : Nat) (s : GoString) :
    (trimLeftSpace fuel s).length ≤ s.length := by
  induction fuel generalizing s with
  | zero => exact Nat.le_refl _
  | succ fuel ih =>
    unfold trimLeftSpace
    split
    · exact Nat.le_trans (ih _) (by simp)
    · exact Nat.le_refl _

theorem length_trimRightSpace_le (fuel : Nat) (s : GoString) :
    (trimRightSpace fuel s).length ≤ s.length := by
  induction fuel generalizing s with
  | zero => exact Nat.le_refl _
  | succ fuel ih =>
    unfold trimRightSpace
    split
    · exact Nat.le_trans (ih _) (by simp)
    · exact Nat.le_refl _

theorem length_trimSpace_le (s : GoString) : (trimSpace s).length ≤ s.length :=
  Nat.le_trans (length_trimRightSpace_le _ _) (length_trimLeftSpace_le _ _)

theorem length_trimPrefix_le (s pre : GoString) : (trimPrefix s pre).length ≤ s.length := by
  unfold trimPrefix
  split <;> simp

theorem length_fieldsLoop_le (fuel : Nat) (field s : GoString) :
    ∀ f ∈ fieldsLoop fuel field s, f.length ≤ field.length + s.length := by
  induction fuel generalizing field s with
  | zero =>
    intro f hf
    unfold fieldsLoop at hf
    split at hf <;> simp_all
  | succ fuel ih =>
    intro f hf
    cases s with
    | nil =>
      unfold fieldsLoop at hf
      split at hf <;> simp_all
    | cons b rest =>
      simp only [fieldsLoop] at hf
      split at hf
      · rename_i r _
        have hlater : ∀ f ∈ fieldsLoop fuel [] ((b :: rest).drop r.length),
            f.length ≤ field.length + (b :: rest).length := by
          intro f hf
          have := ih [] _ f hf
          simp only [List.length_nil, List.length_drop] at this
          omega
        split at hf
        · exact hlater f hf
        · rcases List.mem_cons.mp hf with rfl | hf
          · omega
          · exact hlater f hf
      · have := ih _ _ f hf
        simp only [List.length_append, List.length_cons, List.length_nil] at this ⊢
        omega

theorem length_fields_le {s f : GoString} (hf : f ∈ fields s) : f.length ≤ s.length := by
  simpa using length_fieldsLoop_le s.length [] s f hf

/-!
## Errors

Functions that return a value or the text of an error.
-/

def refuse (bad : Prop) [Decidable bad] (text : GoString) : Except GoString Unit :=
  if bad then .error text else .ok ()

/-- `fmt.Errorf` with `%w` at the end of its format. -/
def wrap {α : Type} (text : GoString) : Except GoString α → Except GoString α
  | .ok a => .ok a
  | .error e => .error (text ++ e)

theorem bind_eq_ok {ε α β : Type} {x : Except ε α} {f : α → Except ε β} {b : β} :
    (x >>= f) = .ok b ↔ ∃ a, x = .ok a ∧ f a = .ok b := by
  cases x with
  | error e | ok a => simp [bind, Except.bind]

@[simp] theorem pure_eq_ok {ε α : Type} {a b : α} :
    (pure a : Except ε α) = .ok b ↔ a = b := by
  simp [pure, Except.pure]

@[simp] theorem wrap_eq_ok {α : Type} {text : GoString} {x : Except GoString α} {a : α} :
    wrap text x = .ok a ↔ x = .ok a := by
  cases x <;> simp [wrap]

theorem refuse_eq_ok {bad : Prop} [Decidable bad] {text : GoString} {u : Unit} :
    refuse bad text = .ok u ↔ ¬ bad := by
  by_cases h : bad <;> simp [refuse, h]

end GloryHole.Go
