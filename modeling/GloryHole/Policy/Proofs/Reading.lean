import GloryHole.Policy.Expr

/-!
# What the written expressions mean

A text `Expresses` a set of queries if its tokens stand for a formula that is true of just
these.  Texts are put together piece by piece: literals, comparisons, calls, parentheses
and lists joined by an operator.  A library that understands the fragment evaluates such a
text to what it expresses.
-/

namespace GloryHole.Policy

open Go
open Support (Connective Formula Lexicon)
open Support.Lexicon (Level Stands Quiet)

/-! ## Tokens of texts put together -/

def Scans (s : GoString) (toks : List Token) : Prop := feed .idle s = (toks, .idle)

instance (s : GoString) (toks : List Token) : Decidable (Scans s toks) :=
  inferInstanceAs (Decidable (_ = _))

theorem feed_append (m : Mode) (s t : GoString) :
    feed m (s ++ t) =
      ((feed m s).1 ++ (feed (feed m s).2 t).1, (feed (feed m s).2 t).2) := by
  induction s generalizing m with
  | nil => rfl
  | cons b s ih =>
    rw [List.cons_append, feed, ih]
    simp only [feed, List.append_assoc]

theorem Scans.append {s s' : GoString} {toks toks' : List Token} (h : Scans s toks)
    (h' : Scans s' toks') : Scans (s ++ s') (toks ++ toks') := by
  unfold Scans at h h' ⊢
  rw [feed_append, h, h']

theorem Scans.lex {s : GoString} {toks : List Token} (h : Scans s toks) : lex s = toks := by
  unfold Scans at h
  rw [Policy.lex, h]
  exact List.append_nil toks

theorem feed_literal {escaped : Bool} {body : GoString} (w : GoString)
    (h : closed escaped body = true) :
    feed (if escaped then .escape w else .text w) body = ([], .text (w ++ body)) := by
  induction body generalizing escaped w with
  | nil =>
    cases escaped with
    | true => cases h
    | false => simp [feed]
  | cons b body ih =>
    cases escaped with
    | true =>
      rw [closed] at h
      have hrest := ih (w ++ [b]) h
      simp only [if_neg Bool.false_ne_true] at hrest
      simp [feed, Mode.step, hrest]
    | false =>
      rw [closed] at h
      split at h
      · rename_i hslash
        have hrest := ih (w ++ [b]) h
        rw [if_pos rfl] at hrest
        have hstep : (Mode.text w).step b = ([], .escape (w ++ [b])) := by
          rw [hslash]
          rfl
        simp [feed, hstep, hrest]
      · rename_i hslash
        rw [Bool.and_eq_true, bne_iff_ne] at h
        have hrest := ih (w ++ [b]) h.2
        simp only [if_neg Bool.false_ne_true] at hrest
        have hstep : (Mode.text w).step b = ([], .text (w ++ [b])) := by
          rw [Mode.step, if_neg (show b ≠ byte '"' from h.1),
            if_neg (show b ≠ byte '\\' from hslash)]
        simp [feed, hstep, hrest]

theorem scans_literal {body : GoString} (h : closed false body = true) :
    Scans (lit "\"" ++ body ++ lit "\"") [.text body] := by
  have hopen : feed .idle (lit "\"") = ([], .text []) := by decide
  have hbody : feed (.text []) body = ([], .text body) := feed_literal [] h
  have hclose : feed (.text body) (lit "\"") = ([.text body], .idle) := rfl
  unfold Scans
  rw [feed_append, feed_append, hopen, hbody]
  dsimp only
  rw [hclose]
  rfl

/-! ## Expressions -/

section

variable (lower upper : Nat → Nat) (literal : GoString → Option GoString)

/-- The text is an expression of `n` atoms, true of the queries with `holds`. -/
def Expresses (level : Level) (s : GoString) (n : Nat) (holds : Context → Bool) : Prop :=
  ∃ toks f, Scans s toks ∧ exprLexicon.Stands level toks f ∧ f.atoms.length = n ∧
    (∀ a ∈ f.atoms, Understood lower upper literal a) ∧
    ∀ ctx, f.eval (atomHolds lower upper literal ctx) = holds ctx

variable {lower upper literal}

variable {s : GoString} {holds : Context → Bool} {n : Nat} {op : Connective}

theorem Expresses.atom {toks : List Token} (hscan : Scans s toks)
    (hstands : exprLexicon.Stands .factor toks (.atom toks))
    (hvalue : ∀ ctx, atomValue lower upper literal ctx toks = some (holds ctx)) :
    Expresses lower upper literal .factor s 1 holds := by
  refine ⟨toks, .atom toks, hscan, hstands, rfl, ?_, ?_⟩
  · rw [Formula.atoms, List.forall_mem_singleton]
    intro ctx
    rw [hvalue ctx]
    rfl
  · intro ctx
    rw [Formula.eval, atomHolds, hvalue ctx, Option.getD_some]

theorem Expresses.lift (op : Connective) (h : Expresses lower upper literal .factor s n holds) :
    Expresses lower upper literal (.list op) s n holds := by
  obtain ⟨toks, f, hscan, hstands, hrest⟩ := h
  exact ⟨toks, f, hscan, hstands.lift op, hrest⟩

theorem Expresses.top (h : Expresses lower upper literal (.list op) s n holds) :
    Expresses lower upper literal (.list .or) s n holds := by
  obtain ⟨toks, f, hscan, hstands, hrest⟩ := h
  exact ⟨toks, f, hscan, hstands.top, hrest⟩

theorem Expresses.congr {level : Level} {holds' : Context → Bool}
    (h : Expresses lower upper literal level s n holds) (heq : ∀ ctx, holds ctx = holds' ctx) :
    Expresses lower upper literal level s n holds' := by
  obtain rfl : holds = holds' := funext heq
  exact h

theorem Expresses.paren (h : Expresses lower upper literal (.list .or) s n holds) :
    Expresses lower upper literal .factor (lit "(" ++ s ++ lit ")") n holds := by
  obtain ⟨toks, f, hscan, hstands, hrest⟩ := h
  have hopen : Scans (lit "(") [.lparen] := by decide
  have hclose : Scans (lit ")") [.rparen] := by decide
  exact ⟨_, f, (hopen.append hscan).append hclose, .paren _ _ hstands, hrest⟩

def opText : Connective → GoString
  | .and => lit " && "
  | .or => lit " || "

theorem scans_opText (op : Connective) : Scans (opText op) [.op op] := by
  cases op with
  | and | or => decide

theorem Expresses.bin {s' : GoString} {n' : Nat} {holds' : Context → Bool}
    (h : Expresses lower upper literal (.list op) s n holds)
    (h' : Expresses lower upper literal (.list op) s' n' holds') :
    Expresses lower upper literal (.list op) (s ++ opText op ++ s') (n + n')
      (fun ctx => op.apply (holds ctx) (holds' ctx)) := by
  obtain ⟨toks, f, hscan, hstands, hn, hatoms, heval⟩ := h
  obtain ⟨toks', f', hscan', hstands', hn', hatoms', heval'⟩ := h'
  refine ⟨toks ++ .op op :: toks', .bin op f f', ?_, .bin op _ _ _ _ hstands hstands', ?_, ?_, ?_⟩
  · simpa using (hscan.append (scans_opText op)).append hscan'
  · rw [Formula.atoms, List.length_append, hn, hn']
  · rw [Formula.atoms, List.forall_mem_append]
    exact ⟨hatoms, hatoms'⟩
  · intro ctx
    rw [Formula.eval, heval, heval']

def quantify : Connective → List Bool → Bool
  | .and, bs => bs.all id
  | .or, bs => bs.any id

theorem quantify_cons (op : Connective) (b : Bool) (bs : List Bool) :
    quantify op (b :: bs) = op.apply b (quantify op bs) := by
  cases op with
  | and | or => rfl

theorem quantify_singleton (op : Connective) (b : Bool) : quantify op [b] = b := by
  cases op with
  | and | or => simp [quantify]

theorem Expresses.join {α : Type} {text : α → GoString} {n : α → Nat} {holds : α → Context → Bool}
    {parts : List α} (hne : parts ≠ [])
    (h : ∀ p ∈ parts, Expresses lower upper literal (.list op) (text p) (n p) (holds p)) :
    Expresses lower upper literal (.list op) (join (opText op) (parts.map text))
      (parts.map n).sum (fun ctx => quantify op (parts.map (holds · ctx))) := by
  induction parts with
  | nil => contradiction
  | cons p parts ih =>
    rw [List.forall_mem_cons] at h
    cases parts with
    | nil =>
      exact h.1.congr fun ctx => (quantify_singleton op (holds p ctx)).symm
    | cons p' parts =>
      have hrest := ih (by simp) h.2
      exact (h.1.bin hrest).congr fun ctx => (quantify_cons op _ _).symm

/-! ## Comparisons and calls -/

def literalText (body : GoString) : GoString := lit "\"" ++ body ++ lit "\""

theorem quiet_word (w : GoString) : exprLexicon.Quiet (.word w) :=
  ⟨rfl, rfl, by simp [exprLexicon], by simp [exprLexicon]⟩

theorem quiet_text (body : GoString) : exprLexicon.Quiet (.text body) :=
  ⟨rfl, rfl, by simp [exprLexicon], by simp [exprLexicon]⟩

theorem quiet_comma : exprLexicon.Quiet .comma :=
  ⟨rfl, rfl, by simp [exprLexicon], by simp [exprLexicon]⟩

theorem quiet_equals : exprLexicon.Quiet .equals :=
  ⟨rfl, rfl, by simp [exprLexicon], by simp [exprLexicon]⟩

theorem Expresses.equals {body v : GoString} (hclosed : closed false body = true)
    (hbody : literal body = some v) :
    Expresses lower upper literal .factor (lit "Domain == " ++ literalText body) 1
      (fun ctx => ctx.domain == v) := by
  have hpre : Scans (lit "Domain == ") [.word (lit "Domain"), .equals] := by decide
  apply Expresses.atom (hpre.append (scans_literal hclosed))
  · apply Stands.quiet (by simp)
    simp only [List.cons_append, List.nil_append, List.forall_mem_cons,
      List.not_mem_nil, false_imp_iff, implies_true, and_true]
    exact ⟨quiet_word _, quiet_equals, quiet_text _⟩
  · intro ctx
    simp [atomValue, fieldValue, hbody]

def argumentTokens : List GoString → List Token
  | [] => []
  | [body] => [.text body]
  | body :: bodies => .text body :: .comma :: argumentTokens bodies

theorem quiet_argumentTokens (bodies : List GoString) :
    ∀ t ∈ argumentTokens bodies, exprLexicon.Quiet t := by
  induction bodies with
  | nil => simp [argumentTokens]
  | cons body bodies ih =>
    cases bodies with
    | nil => simpa [argumentTokens] using quiet_text body
    | cons body' bodies =>
      rw [argumentTokens, List.forall_mem_cons, List.forall_mem_cons]
      · exact ⟨quiet_text _, quiet_comma, ih⟩
      · simp

theorem scans_arguments {bodies : List GoString} (hne : bodies ≠ [])
    (hclosed : ∀ body ∈ bodies, closed false body = true) :
    Scans (join (lit ", ") (bodies.map literalText)) (argumentTokens bodies) := by
  induction bodies with
  | nil => contradiction
  | cons body bodies ih =>
    rw [List.forall_mem_cons] at hclosed
    cases bodies with
    | nil => exact scans_literal hclosed.1
    | cons body' bodies =>
      have hcomma : Scans (lit ", ") [.comma] := by decide
      exact ((scans_literal hclosed.1).append hcomma).append (ih (by simp) hclosed.2)

theorem literalArguments_argumentTokens {bodies values : List GoString} (hne : bodies ≠ [])
    (h : List.Forall₂ (fun body v => literal body = some v) bodies values) :
    literalArguments literal (.comma :: (argumentTokens bodies ++ [.rparen])) = some values := by
  induction h with
  | nil => contradiction
  | @cons body v bodies values hbody hrest ih =>
    cases hrest with
    | nil => simp [argumentTokens, literalArguments, hbody]
    | @cons body' v' bodies values hbody' hrest =>
      have htail := ih (by simp)
      rw [argumentTokens, List.cons_append, List.cons_append, literalArguments, hbody,
        Option.bind_some, htail, Option.map_some]
      simp

theorem Expresses.call {before f field : GoString} {bodies values : List GoString}
    {x : Context → GoString} {holds : Context → Bool}
    (hbefore : Scans before [.word f, .lparen, .word field, .comma])
    (hfield : ∀ ctx, fieldValue ctx field = some (x ctx)) (hne : bodies ≠ [])
    (hclosed : ∀ body ∈ bodies, closed false body = true)
    (hvalues : List.Forall₂ (fun body v => literal body = some v) bodies values)
    (hcall : ∀ ctx, callFunction lower upper f (x ctx) values = some (holds ctx)) :
    Expresses lower upper literal .factor
      (before ++ Go.join (lit ", ") (bodies.map literalText) ++ lit ")") 1 holds := by
  have hclose : Scans (lit ")") [.rparen] := by decide
  apply Expresses.atom ((hbefore.append (scans_arguments hne hclosed)).append hclose)
  · have hargs : ∀ t ∈ .word field :: .comma :: argumentTokens bodies, exprLexicon.Quiet t := by
      rw [List.forall_mem_cons, List.forall_mem_cons]
      exact ⟨quiet_word _, quiet_comma, quiet_argumentTokens bodies⟩
    exact @Stands.bracket Token exprLexicon _ [.word f] _ .lparen .rparen (by simp)
      (List.forall_mem_singleton.mpr (quiet_word f)) rfl rfl ⟨rfl, rfl⟩ hargs
  · intro ctx
    have hvalues := literalArguments_argumentTokens hne hvalues
    simp [atomValue, hfield, hvalues, hcall]

/-! ## What the library makes of them -/

theorem Expresses.run {printable : Nat → Bool} {lang : ExprLang}
    (h : Expresses lower upper literal (.list .or) s n holds)
    (hlang : Understands lower upper literal printable lang) (hs : lang.compiles s = true)
    (ctx : Context) : lang.run s ctx = some (holds ctx) := by
  obtain ⟨toks, f, hscan, hstands, -, hatoms, heval⟩ := h
  rw [← hscan.lex] at hstands
  rw [hlang.run hstands hatoms hs, heval]

theorem Expresses.ne_nil {level : Level} (h : Expresses lower upper literal level s n holds) :
    s ≠ [] := by
  rintro rfl
  obtain ⟨toks, f, hscan, hstands, -⟩ := h
  exact hstands.ne_nil hscan.lex.symm

theorem Expresses.compiles {printable : Nat → Bool} {lang : ExprLang}
    (h : Expresses lower upper literal (.list .or) s n holds)
    (hlang : Understands lower upper literal printable lang) (hn : n ≤ 2) :
    lang.compiles s = true := by
  obtain ⟨toks, f, hscan, hstands, hlength, hatoms, -⟩ := h
  rw [← hscan.lex] at hstands
  exact hlang.compiles hstands hatoms (hlength.trans_le hn)

end

/-! ## A library that understands the fragment -/

section

variable (lower upper : Nat → Nat)

def Token.refused : Token → Bool
  | .text body => (unquote body).isNone
  | _ => false

def fragment : ExprLang where
  compiles text := !(lex text).any Token.refused
  run text ctx :=
    (exprLexicon.read (lex text)).map (·.eval (atomHolds lower upper unquote ctx))

/-- The literals of a formula are in its atoms. -/
theorem mem_atoms_of_stands {level : Level} {toks : List Token} {f : Formula (List Token)}
    (h : exprLexicon.Stands level toks f) {body : GoString} (hbody : .text body ∈ toks) :
    ∃ a ∈ f.atoms, .text body ∈ a := by
  induction h with
  | atom toks hne hatomic hflat hinner hbang => exact ⟨toks, by simp [Formula.atoms], hbody⟩
  | not toks f _ h ih | paren toks f h ih => exact ih (by simpa [exprLexicon] using hbody)
  | conj toks f h ih | disj toks f h ih => exact ih hbody
  | bin op x y f g hx hy ihx ihy =>
    simp only [exprLexicon, List.mem_append, List.mem_cons, reduceCtorEq, false_or] at hbody
    rw [Formula.atoms]
    rcases hbody with hbody | hbody
    · obtain ⟨a, ha, hmem⟩ := ihx hbody
      exact ⟨a, List.mem_append_left _ ha, hmem⟩
    · obtain ⟨a, ha, hmem⟩ := ihy hbody
      exact ⟨a, List.mem_append_right _ ha, hmem⟩

variable {lower upper}

theorem literalArguments_literal {literal : GoString → Option GoString} {toks : List Token}
    {values : List GoString} (h : literalArguments literal toks = some values)
    {body : GoString} (hbody : .text body ∈ toks) : (literal body).isSome := by
  fun_induction literalArguments literal toks generalizing values with
  | case1 => simp at hbody
  | case2 body' toks ih =>
    rw [Option.bind_eq_some_iff] at h
    obtain ⟨v, hv, h⟩ := h
    rw [Option.map_eq_some_iff] at h
    obtain ⟨vs, hvs, -⟩ := h
    simp only [List.mem_cons, reduceCtorEq, false_or, Token.text.injEq] at hbody
    rcases hbody with rfl | hbody
    · rw [hv]
      rfl
    · exact ih hvs hbody
  | case3 => cases h

theorem Understood.literal {literal : GoString → Option GoString} {a : List Token}
    (h : Understood lower upper literal a) {body : GoString} (hbody : .text body ∈ a) :
    (literal body).isSome := by
  have hvalue := h ⟨0, [], [], [], 0, 0, 0, 0, 0⟩
  clear h
  unfold atomValue at hvalue
  split at hvalue
  · rename_i field body'
    obtain rfl : body = body' := by simpa using hbody
    cases hlit : literal body with
    | none => simp [hlit] at hvalue
    | some v => rfl
  · rename_i f field toks
    cases hargs : literalArguments literal toks with
    | none => simp [hargs] at hvalue
    | some values => exact literalArguments_literal hargs (by simpa using hbody)
  · cases hvalue

theorem understands_fragment (printable : Nat → Bool) :
    Understands lower upper unquote printable (fragment lower upper) where
  run := by
    intro text f hstands hatoms hcompiles ctx
    obtain ⟨g, hread, hequiv⟩ := hstands.read
    change (exprLexicon.read (lex text)).map _ = _
    rw [hread, Option.map_some, hequiv]
  compiles := by
    intro text f hstands hatoms hlength
    simp only [fragment, Bool.not_eq_true', List.any_eq_false]
    intro t ht hrefused
    cases t with
    | text body =>
      obtain ⟨a, ha, hbody⟩ := mem_atoms_of_stands hstands ht
      have hsome := (hatoms a ha).literal hbody
      rw [Token.refused, Option.isNone_iff_eq_none] at hrefused
      rw [hrefused] at hsome
      cases hsome
    | _ => cases hrefused
  refuses := by
    intro text body hbad hbody hnone
    simp only [fragment, Bool.not_eq_false', List.any_eq_true]
    refine ⟨.text body, hbody, ?_⟩
    rw [Token.refused, hnone]
    rfl
  unquotes s _ := unquote_quoteBody printable s
  dot body := unquote_plain body (by decide) (by decide) (by decide)

end

end GloryHole.Policy
