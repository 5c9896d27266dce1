import Mathlib

/-!
# Formulas read by precedence

Tokens are read as propositional formulas: negation binds tighter than conjunction, conjunction
tighter than disjunction, and an atom is whatever stands between them.  The reader splits the
tokens at the operators outside brackets, and finds a formula equivalent to those the grammar
gives.
-/

namespace GloryHole.Support

inductive Connective where
  | and
  | or
  deriving DecidableEq

inductive Formula (α : Type) where
  | atom (a : α)
  | not (f : Formula α)
  | bin (op : Connective) (f g : Formula α)
  deriving DecidableEq

def Connective.apply : Connective → Bool → Bool → Bool
  | .and => (· && ·)
  | .or => (· || ·)

theorem Connective.apply_assoc (op : Connective) (a b c : Bool) :
    op.apply (op.apply a b) c = op.apply a (op.apply b c) := by
  cases op with
  | and => exact Bool.and_assoc a b c
  | or => exact Bool.or_assoc a b c

namespace Formula

variable {α : Type}

def eval (v : α → Bool) : Formula α → Bool
  | .atom a => v a
  | .not f => !f.eval v
  | .bin op f g => op.apply (f.eval v) (g.eval v)

def atoms : Formula α → List α
  | .atom a => [a]
  | .not f => f.atoms
  | .bin _ f g => f.atoms ++ g.atoms

def Equiv (f g : Formula α) : Prop := ∀ v, f.eval v = g.eval v

def join (op : Connective) : List (Formula α) → Option (Formula α)
  | [] => none
  | [f] => some f
  | f :: fs => (join op fs).map (.bin op f)

variable {op : Connective} {fs : List (Formula α)}

theorem join_cons (f : Formula α) (h : fs ≠ []) :
    join op (f :: fs) = (join op fs).map (.bin op f) := by
  cases fs with
  | nil => contradiction
  | cons g gs => rfl

theorem ne_nil_of_join {f : Formula α} (h : join op fs = some f) : fs ≠ [] := by
  rintro rfl
  cases h

theorem join_append {gs : List (Formula α)} {f g : Formula α} (hf : join op fs = some f)
    (hg : join op gs = some g) :
    ∃ k, join op (fs ++ gs) = some k ∧ k.Equiv (.bin op f g) := by
  induction fs generalizing f with
  | nil => cases hf
  | cons f' fs ih =>
    cases fs with
    | nil =>
      cases hf
      refine ⟨.bin op f' g, ?_, fun v => rfl⟩
      rw [List.singleton_append, join_cons f' (ne_nil_of_join hg), hg, Option.map_some]
    | cons f'' fs =>
      rw [join_cons f' (by simp), Option.map_eq_some_iff] at hf
      obtain ⟨f₀, hf₀, rfl⟩ := hf
      obtain ⟨k, hk, heval⟩ := ih hf₀
      refine ⟨.bin op f' k, ?_, ?_⟩
      · rw [List.cons_append, join_cons f' (by simp), hk, Option.map_some]
      · intro v
        simp only [eval, heval v, op.apply_assoc]

end Formula

/-! ## Tokens -/

inductive Turn where
  | opening
  | closing
  | level
  deriving DecidableEq

structure Lexicon (τ : Type) where
  bang : τ
  lparen : τ
  rparen : τ
  op : Connective → τ
  turn : τ → Turn
  /-- May stand before an argument list. -/
  name : τ → Bool
  /-- May stand in an atom. -/
  plain : τ → Bool
  turn_bang : turn bang = .level
  turn_lparen : turn lparen = .opening
  turn_rparen : turn rparen = .closing
  turn_op : ∀ c, turn (op c) = .level
  op_ne : op .and ≠ op .or
  name_lparen : name lparen = false
  bang_ne_op : ∀ c, bang ≠ op c
  plain_bang : plain bang = true
  plain_lparen : plain lparen = true
  plain_rparen : plain rparen = true
  plain_op : ∀ c, plain (op c) = true

namespace Lexicon

variable {τ : Type} (L : Lexicon τ)

def next (d : Nat) (t : τ) : Option Nat :=
  match L.turn t, d with
  | .opening, d => some (d + 1)
  | .closing, 0 => none
  | .closing, d + 1 => some d
  | .level, d => some d

def balancedFrom : Nat → List τ → Bool
  | d, [] => d = 0
  | d, t :: ts =>
    match L.next d t with
    | none => false
    | some d' => balancedFrom d' ts

def balanced (toks : List τ) : Bool := L.balancedFrom 0 toks

/-! ## Depth -/

section

variable {L}

theorem next_add {d d' : Nat} {t : τ} (e : Nat) (h : L.next d t = some d') :
    L.next (d + e) t = some (d' + e) := by
  unfold next at h ⊢
  cases ht : L.turn t with
  | opening | level =>
    simp only [ht, Option.some.injEq] at h ⊢
    omega
  | closing =>
    cases d with
    | zero => simp [ht] at h
    | succ d =>
      simp only [ht, Option.some.injEq] at h
      simp only [Nat.add_right_comm, h]

theorem next_level {t : τ} (d : Nat) (h : L.turn t = .level) : L.next d t = some d := by
  simp only [next, h]

theorem balancedFrom_cons {d d' : Nat} {t : τ} {ts : List τ} (h : L.next d t = some d') :
    L.balancedFrom d (t :: ts) = L.balancedFrom d' ts := by
  simp only [balancedFrom, h]

theorem exists_next {d : Nat} {t : τ} {ts : List τ} (h : L.balancedFrom d (t :: ts) = true) :
    ∃ d', L.next d t = some d' ∧ L.balancedFrom d' ts = true := by
  rw [balancedFrom] at h
  cases hn : L.next d t with
  | none => simp [hn] at h
  | some d' => exact ⟨d', rfl, by simpa [hn] using h⟩

variable {x : List τ}

theorem balancedFrom_append {d : Nat} (e : Nat) (ts : List τ) (hx : L.balancedFrom d x = true) :
    L.balancedFrom (d + e) (x ++ ts) = L.balancedFrom e ts := by
  induction x generalizing d with
  | nil =>
    have hd : d = 0 := by simpa [balancedFrom] using hx
    rw [hd, Nat.zero_add, List.nil_append]
  | cons t x ih =>
    obtain ⟨d', hn, hx⟩ := exists_next hx
    rw [List.cons_append, balancedFrom_cons (next_add e hn), ih hx]

theorem turn_ne {t t' : τ} (h : L.turn t ≠ L.turn t') : t ≠ t' := fun ht => h (by rw [ht])

theorem next_opening {t : τ} (d : Nat) (h : L.turn t = .opening) : L.next d t = some (d + 1) := by
  simp only [next, h]

theorem next_closing {t : τ} (d : Nat) (h : L.turn t = .closing) : L.next (d + 1) t = some d := by
  simp only [next, h]

theorem balanced_bracket {o c : τ} (ho : L.turn o = .opening) (hc : L.turn c = .closing)
    (hx : L.balanced x = true) :
    L.balanced (o :: (x ++ [c])) = true := by
  have h := balancedFrom_append 1 [c] hx
  rw [balancedFrom_cons (next_closing 0 hc), Nat.zero_add] at h
  rw [balanced, balancedFrom_cons (next_opening 0 ho), h]
  rfl

theorem balanced_append {y : List τ} (hx : L.balanced x = true) (hy : L.balanced y = true) :
    L.balanced (x ++ y) = true :=
  (balancedFrom_append 0 y hx).trans hy

theorem balanced_of_level (h : ∀ t ∈ x, L.turn t = .level) :
    L.balanced x = true := by
  induction x with
  | nil => rfl
  | cons t x ih =>
    rw [List.forall_mem_cons] at h
    rw [balanced, balancedFrom_cons (next_level 0 h.1)]
    exact ih h.2

end

/-- The last part of the one list and the first of the other are one part. -/
def glue : List (List τ) → List (List τ) → List (List τ)
  | [], ys => ys
  | [p], ys => ys.modifyHead (p ++ ·)
  | p :: q :: ps, ys => p :: glue (q :: ps) ys

variable {xs : List (List τ)}

theorem glue_modifyHead (ys : List (List τ)) (t : τ) (h : xs ≠ []) :
    glue (xs.modifyHead (t :: ·)) ys = (glue xs ys).modifyHead (t :: ·) := by
  match xs with
  | [p] =>
    cases ys with
    | nil | cons y ys => rfl
  | p :: q :: ps => rfl

theorem glue_cons (ys : List (List τ)) (p : List τ) (h : xs ≠ []) :
    glue (p :: xs) ys = p :: glue xs ys := by
  cases xs with
  | nil => contradiction
  | cons q ps => rfl

theorem glue_nil_cons (ys : List (List τ)) (h : xs ≠ []) :
    glue xs ([] :: ys) = xs ++ ys := by
  induction xs with
  | nil => contradiction
  | cons p ps ih =>
    cases ps with
    | nil => simp [glue]
    | cons q ps => simp only [glue, ih (by simp), List.cons_append]

variable [DecidableEq τ]

def splitFrom (sep : τ) : Nat → List τ → List (List τ)
  | _, [] => [[]]
  | d, t :: ts =>
    if d = 0 ∧ t = sep then [] :: splitFrom sep 0 ts
    else (splitFrom sep ((L.next d t).getD 0) ts).modifyHead (t :: ·)

def inner : List τ → Option (List τ)
  | [] => none
  | t :: ts =>
    if t = L.lparen ∧ ts.getLast? = some L.rparen ∧ L.balanced ts.dropLast = true then
      some ts.dropLast
    else none

/-- What a negation applies to: a name, a call, parentheses, or a negation. -/
def operand : List τ → Bool
  | [] => false
  | t :: ts =>
    if t = L.bang then operand ts
    else if L.name t then ts = [] || (L.inner ts).isSome
    else (L.inner (t :: ts)).isSome

def atomic (toks : List τ) : Bool := toks.all L.plain && L.balanced toks

def readUnary (inside : List τ → Option (Formula (List τ))) :
    List τ → Option (Formula (List τ))
  | [] => none
  | t :: ts =>
    if t = L.bang ∧ L.operand ts = true then (readUnary inside ts).map .not
    else
      match L.inner (t :: ts) with
      | some toks => inside toks
      | none => if L.atomic (t :: ts) then some (.atom (t :: ts)) else none

def readList (op : Connective) (part : List τ → Option (Formula (List τ))) (toks : List τ) :
    Option (Formula (List τ)) :=
  ((L.splitFrom (L.op op) 0 toks).mapM part).bind (Formula.join op)

def readStep (inside : List τ → Option (Formula (List τ))) : List τ → Option (Formula (List τ)) :=
  L.readList .or (L.readList .and (L.readUnary inside))

def readWithin : Nat → List τ → Option (Formula (List τ))
  | 0, _ => none
  | n + 1, toks => L.readStep (readWithin n) toks

def read (toks : List τ) : Option (Formula (List τ)) := L.readWithin (toks.length + 1) toks

/-! ## The grammar -/

inductive Level where
  | factor
  | list (op : Connective)

inductive Stands : Level → List τ → Formula (List τ) → Prop
  | atom (toks : List τ) (hne : toks ≠ []) (hatomic : L.atomic toks = true)
      (hflat : ∀ op, L.splitFrom (L.op op) 0 toks = [toks]) (hinner : L.inner toks = none)
      (hbang : toks.head? ≠ some L.bang) : Stands .factor toks (.atom toks)
  | not (toks : List τ) (f : Formula (List τ)) (hoperand : L.operand toks = true)
      (h : Stands .factor toks f) : Stands .factor (L.bang :: toks) (.not f)
  | paren (toks : List τ) (f : Formula (List τ)) (h : Stands (.list .or) toks f) :
      Stands .factor (L.lparen :: (toks ++ [L.rparen])) f
  | conj (toks : List τ) (f : Formula (List τ)) (h : Stands .factor toks f) :
      Stands (.list .and) toks f
  | disj (toks : List τ) (f : Formula (List τ)) (h : Stands (.list .and) toks f) :
      Stands (.list .or) toks f
  | bin (op : Connective) (x y : List τ) (f g : Formula (List τ)) (hx : Stands (.list op) x f)
      (hy : Stands (.list op) y g) : Stands (.list op) (x ++ L.op op :: y) (.bin op f g)

/-! ## Splitting -/

section

variable {L}

theorem splitFrom_ne_nil (sep : τ) (d : Nat) (ts : List τ) : L.splitFrom sep d ts ≠ [] := by
  cases ts with
  | nil => simp [splitFrom]
  | cons t ts =>
    rw [splitFrom]
    split
    · simp
    · simpa [List.modifyHead_eq_nil_iff] using splitFrom_ne_nil sep _ ts

theorem splitFrom_cons {sep t : τ} {d d' : Nat} (ts : List τ) (h : L.next d t = some d')
    (hsep : ¬ (d = 0 ∧ t = sep)) :
    L.splitFrom sep d (t :: ts) = (L.splitFrom sep d' ts).modifyHead (t :: ·) := by
  rw [splitFrom, if_neg hsep, h, Option.getD_some]

variable {x toks : List τ} {l : Level} {f : Formula (List τ)} {op : Connective}

theorem splitFrom_append {sep : τ} {d : Nat} (e : Nat) (ts : List τ) (hlevel : L.turn sep = .level)
    (hx : L.balancedFrom d x = true) :
    L.splitFrom sep (d + e) (x ++ ts) =
      glue (L.splitFrom sep (d + e) x) (L.splitFrom sep e ts) := by
  induction x generalizing d with
  | nil =>
    have hd : d = 0 := by simpa [balancedFrom] using hx
    subst hd
    cases h : L.splitFrom sep e ts with
    | nil => exact absurd h (splitFrom_ne_nil sep e ts)
    | cons p ps => simp [splitFrom, glue, h]
  | cons t x ih =>
    obtain ⟨d', hn, hx⟩ := exists_next hx
    have hn := next_add e hn
    by_cases hsep : d + e = 0 ∧ t = sep
    · obtain ⟨hd, rfl⟩ := hsep
      rw [next_level _ hlevel, Option.some.injEq, hd] at hn
      rw [List.cons_append, splitFrom, if_pos ⟨hd, rfl⟩, splitFrom, if_pos ⟨hd, rfl⟩, hn, ih hx,
        glue_cons _ _ (splitFrom_ne_nil _ _ _)]
    · rw [List.cons_append, splitFrom_cons _ hn hsep, splitFrom_cons _ hn hsep, ih hx,
        glue_modifyHead _ _ (splitFrom_ne_nil _ _ _)]

theorem splitFrom_inside {sep : τ} {d : Nat} (hx : L.balancedFrom d x = true) :
    L.splitFrom sep (d + 1) x = [x] := by
  induction x generalizing d with
  | nil => rfl
  | cons t x ih =>
    obtain ⟨d', hn, hx⟩ := exists_next hx
    rw [splitFrom_cons _ (next_add 1 hn) (by omega), ih hx]
    rfl

theorem splitFrom_sep {sep : τ} (y : List τ) (hlevel : L.turn sep = .level)
    (hx : L.balanced x = true) :
    L.splitFrom sep 0 (x ++ sep :: y) = L.splitFrom sep 0 x ++ L.splitFrom sep 0 y := by
  have h := splitFrom_append 0 (sep :: y) hlevel hx
  rw [splitFrom, if_pos ⟨rfl, rfl⟩, glue_nil_cons _ (splitFrom_ne_nil _ _ _)] at h
  exact h

theorem splitFrom_bracket {sep o c : τ} (hlevel : L.turn sep = .level) (ho : L.turn o = .opening)
    (hc : L.turn c = .closing) (hx : L.balanced x = true) :
    L.splitFrom sep 0 (o :: (x ++ [c])) = [o :: (x ++ [c])] := by
  have hne : o ≠ sep := turn_ne (by rw [ho, hlevel]; decide)
  have h := splitFrom_append 1 [c] hlevel hx
  rw [splitFrom_inside hx, splitFrom_cons _ (next_closing 0 hc) (by omega), Nat.zero_add] at h
  rw [splitFrom_cons _ (next_opening 0 ho) (fun h => hne h.2), h]
  rfl

theorem splitFrom_of_level {sep : τ} {x : List τ} (ts : List τ)
    (h : ∀ t ∈ x, L.turn t = .level ∧ t ≠ sep) :
    L.splitFrom sep 0 (x ++ ts) = (L.splitFrom sep 0 ts).modifyHead (x ++ ·) := by
  induction x with
  | nil =>
    cases hs : L.splitFrom sep 0 ts with
    | nil => exact absurd hs (splitFrom_ne_nil sep 0 ts)
    | cons p ps => simp [hs]
  | cons t x ih =>
    rw [List.forall_mem_cons] at h
    rw [List.cons_append, splitFrom_cons _ (next_level 0 h.1.1) (fun ht => h.1.2 ht.2), ih h.2,
      List.modifyHead_modifyHead]
    rfl

/-! ## What stands for a formula -/

theorem Stands.balanced (h : L.Stands l toks f) : L.balanced toks = true := by
  induction h with
  | atom toks _ hatomic => exact (Bool.and_eq_true_iff.mp hatomic).2
  | not toks f _ _ ih =>
    rw [Lexicon.balanced, balancedFrom_cons (next_level 0 L.turn_bang)]
    exact ih
  | paren toks f _ ih => exact balanced_bracket L.turn_lparen L.turn_rparen ih
  | conj toks f _ ih | disj toks f _ ih => exact ih
  | bin op x y f g _ _ ihx ihy =>
    have h := balancedFrom_append 0 (L.op op :: y) ihx
    rw [Nat.add_zero, balancedFrom_cons (next_level 0 (L.turn_op op))] at h
    rw [Lexicon.balanced, h]
    exact ihy

theorem Stands.ne_nil (h : L.Stands l toks f) : toks ≠ [] := by
  induction h with
  | atom toks hne => exact hne
  | not toks f hoperand h ih | paren toks f h ih => exact List.cons_ne_nil _ _
  | conj toks f h ih | disj toks f h ih => exact ih
  | bin op x y f g hx hy ihx ihy => exact List.append_ne_nil_of_left_ne_nil ihx _

def Level.excludes : Level → List Connective
  | .factor => [.and, .or]
  | .list .and => [.or]
  | .list .or => []

theorem Stands.flat (h : L.Stands l toks f) :
    ∀ op ∈ l.excludes, L.splitFrom (L.op op) 0 toks = [toks] := by
  induction h with
  | atom toks _ _ hflat => exact fun op _ => hflat op
  | not toks f _ _ ih =>
    intro op hop
    rw [splitFrom_cons _ (next_level 0 L.turn_bang) (fun h => L.bang_ne_op op h.2), ih op hop]
    rfl
  | paren toks f h ih =>
    exact fun op _ => splitFrom_bracket (L.turn_op op) L.turn_lparen L.turn_rparen h.balanced
  | conj toks f _ ih => exact fun op hop => ih op (by cases op <;> simp [Level.excludes])
  | disj toks f _ ih => exact fun op hop => by cases hop
  | bin op x y f g hx _ ihx ihy =>
    cases op with
    | or => exact fun op hop => by cases hop
    | and =>
      intro op hop
      obtain rfl : op = .or := by simpa [Level.excludes] using hop
      have h := splitFrom_append 0 (L.op .and :: y) (L.turn_op .or) hx.balanced
      rw [Nat.add_zero, ihx .or hop,
        splitFrom_cons _ (next_level 0 (L.turn_op .and)) (fun h => L.op_ne h.2),
        ihy .or hop] at h
      exact h

/-! ## The reader -/

theorem readList_of_flat {part : List τ → Option (Formula (List τ))}
    (h : L.splitFrom (L.op op) 0 toks = [toks]) :
    L.readList op part toks = part toks := by
  rw [readList, h]
  cases hp : part toks with
  | none => simp [hp]
  | some f => simp [hp, Formula.join]

theorem readList_bin {part : List τ → Option (Formula (List τ))} {y : List τ} {g : Formula (List τ)}
    (hx : L.balanced x = true) (hf : L.readList op part x = some f)
    (hg : L.readList op part y = some g) :
    ∃ k, L.readList op part (x ++ L.op op :: y) = some k ∧ k.Equiv (.bin op f g) := by
  rw [readList, Option.bind_eq_some_iff] at hf hg
  obtain ⟨fs, hfs, hf⟩ := hf
  obtain ⟨gs, hgs, hg⟩ := hg
  obtain ⟨k, hk, heq⟩ := Formula.join_append hf hg
  refine ⟨k, ?_, heq⟩
  rw [readList, splitFrom_sep y (L.turn_op op) hx, List.mapM_append, hfs, hgs]
  exact hk

theorem inner_paren (hx : L.balanced x = true) :
    L.inner (L.lparen :: (x ++ [L.rparen])) = some x := by
  simp [inner, hx]

theorem readUnary_cons (inside : List τ → Option (Formula (List τ))) {t : τ} {ts : List τ}
    (h : t ≠ L.bang) :
    L.readUnary inside (t :: ts) =
      match L.inner (t :: ts) with
      | some toks => inside toks
      | none => if L.atomic (t :: ts) then some (.atom (t :: ts)) else none := by
  rw [readUnary, if_neg (fun hb => h hb.1)]

def readAt (L : Lexicon τ) (inside : List τ → Option (Formula (List τ))) :
    Level → List τ → Option (Formula (List τ))
  | .factor => L.readUnary inside
  | .list .and => L.readList .and (L.readUnary inside)
  | .list .or => L.readStep inside

theorem Stands.readAt (h : L.Stands l toks f) {n : Nat} (hn : toks.length ≤ n) :
    ∃ g, L.readAt (L.readWithin n) l toks = some g ∧ g.Equiv f := by
  induction h generalizing n with
  | atom toks hne hatomic _ hinner hbang =>
    obtain ⟨t, ts, rfl⟩ := List.exists_cons_of_ne_nil hne
    refine ⟨_, ?_, fun v => rfl⟩
    rw [Lexicon.readAt, readUnary_cons _ (by simpa using hbang), hinner, if_pos hatomic]
  | not toks f hoperand _ ih =>
    obtain ⟨g, hg, heq⟩ := ih (Nat.le_of_succ_le hn)
    refine ⟨.not g, ?_, fun v => by rw [Formula.eval, heq v, Formula.eval]⟩
    rw [Lexicon.readAt] at hg ⊢
    rw [readUnary, if_pos ⟨rfl, hoperand⟩, hg, Option.map_some]
  | paren toks f h ih =>
    have hbang : L.lparen ≠ L.bang :=
      turn_ne (by rw [L.turn_lparen, L.turn_bang]; decide)
    simp only [List.length_cons, List.length_append, List.length_nil] at hn
    obtain ⟨k, rfl⟩ : ∃ k, n = k + 1 := ⟨n - 1, by omega⟩
    obtain ⟨g, hg, heq⟩ := @ih k (by omega)
    refine ⟨g, ?_, heq⟩
    rw [Lexicon.readAt, readUnary_cons _ hbang, inner_paren h.balanced]
    exact hg
  | conj toks f h ih =>
    rw [Lexicon.readAt, readList_of_flat (h.flat .and (by simp [Level.excludes]))]
    exact ih hn
  | disj toks f h ih =>
    rw [Lexicon.readAt, readStep, readList_of_flat (h.flat .or (by simp [Level.excludes]))]
    exact ih hn
  | bin op x y f g hx _ ihx ihy =>
    rw [List.length_append, List.length_cons] at hn
    obtain ⟨f', hf, hfeq⟩ := @ihx n (by omega)
    obtain ⟨g', hg, hgeq⟩ := @ihy n (by omega)
    obtain ⟨k, hk, heq⟩ : ∃ k, L.readAt (L.readWithin n) (.list op) (x ++ L.op op :: y) = some k ∧
        k.Equiv (.bin op f' g') := by
      cases op with
      | and | or => exact readList_bin hx.balanced hf hg
    refine ⟨k, hk, fun v => ?_⟩
    rw [heq v, Formula.eval, Formula.eval, hfeq v, hgeq v]

/-- The reader finds a formula that is equivalent to the one of the grammar. -/
theorem Stands.read (h : L.Stands (.list .or) toks f) :
    ∃ g, L.read toks = some g ∧ g.Equiv f :=
  h.readAt (Nat.le_refl _)

/-! ## Atoms -/

structure Quiet (L : Lexicon τ) (t : τ) : Prop where
  level : L.turn t = .level
  plain : L.plain t = true
  notBang : t ≠ L.bang
  notOp : ∀ op, t ≠ L.op op

theorem inner_eq_none {t : τ} {ts : List τ} (h : L.turn t = .level) :
    L.inner (t :: ts) = none := by
  have hne : t ≠ L.lparen := turn_ne (by rw [h, L.turn_lparen]; decide)
  rw [inner, if_neg (fun hp => hne hp.1)]

theorem Stands.quiet (hne : toks ≠ []) (h : ∀ t ∈ toks, L.Quiet t) :
    L.Stands .factor toks (.atom toks) := by
  obtain ⟨t, ts, rfl⟩ := List.exists_cons_of_ne_nil hne
  have ht := h t List.mem_cons_self
  refine .atom _ hne ?_ ?_ (inner_eq_none ht.level) (by simpa using ht.notBang)
  · rw [atomic, balanced_of_level fun t ht => (h t ht).level, Bool.and_true, List.all_eq_true]
    exact fun t ht => (h t ht).plain
  · intro op
    have hsplit := @splitFrom_of_level _ L _ (L.op op) (t :: ts) []
      fun t ht => ⟨(h t ht).level, (h t ht).notOp op⟩
    simpa [splitFrom] using hsplit

/-- A call, an index or a membership test. -/
theorem Stands.bracket {front args : List τ} {o c : τ} (hne : front ≠ [])
    (hfront : ∀ t ∈ front, L.Quiet t) (ho : L.turn o = .opening) (hc : L.turn c = .closing)
    (hplain : L.plain o = true ∧ L.plain c = true) (hargs : ∀ t ∈ args, L.Quiet t) :
    L.Stands .factor (front ++ o :: (args ++ [c])) (.atom (front ++ o :: (args ++ [c]))) := by
  obtain ⟨t, ts, rfl⟩ := List.exists_cons_of_ne_nil hne
  have ht := hfront t List.mem_cons_self
  have hbalanced : L.balanced args = true := balanced_of_level fun t ht => (hargs t ht).level
  refine .atom _ (by simp) ?_ ?_ (inner_eq_none ht.level) (by simpa using ht.notBang)
  · rw [atomic, balanced_append (balanced_of_level fun t ht => (hfront t ht).level)
      (balanced_bracket ho hc hbalanced), Bool.and_true, List.all_eq_true]
    rw [List.forall_mem_append]
    refine ⟨fun t ht => (hfront t ht).plain, ?_⟩
    rw [List.forall_mem_cons, List.forall_mem_append, List.forall_mem_singleton]
    exact ⟨hplain.1, fun t ht => (hargs t ht).plain, hplain.2⟩
  · intro op
    rw [splitFrom_of_level _ fun t ht => ⟨(hfront t ht).level, (hfront t ht).notOp op⟩,
      splitFrom_bracket (L.turn_op op) ho hc hbalanced]
    rfl

/-! ## Lists of parts -/

theorem Stands.lift (op : Connective) (h : L.Stands .factor toks f) :
    L.Stands (.list op) toks f := by
  cases op with
  | and => exact .conj _ _ h
  | or => exact .disj _ _ (.conj _ _ h)

theorem Stands.top (h : L.Stands (.list op) toks f) : L.Stands (.list .or) toks f := by
  cases op with
  | and => exact .disj _ _ h
  | or => exact h

end

end Lexicon

end GloryHole.Support
