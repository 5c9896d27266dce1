import GloryHole.Go.Unquote
import GloryHole.Policy.Engine
import GloryHole.Support.Precedence

/-!
# Expressions the server writes

The part of the expression language in which the server writes rules of its own: a field
compared with a literal, or given to a function with literals, joined by `&&` and `||`.
The library that reads it is an `ExprLang`; `Understands` says what is taken for granted
about it.  How the library reads the text between two quotes is `literal`.
-/

namespace GloryHole.Policy

open Go
open Support (Connective Formula Lexicon Turn)

/-!
## Functions of the policy language

The functions on names, addresses and query types that the engine gives the expression
language.  Go's regular expressions are a parameter: `regexp` compiles a pattern into the
texts it matches.
-/

section

variable (lower upper : Nat → Nat)

def domainMatches (domain pattern : GoString) : Bool :=
  let domain := toLower lower (trimSuffix domain (lit "."))
  let pattern := toLower lower (trimSuffix pattern (lit "."))
  if domain = pattern then true
  else if hasPrefix pattern (lit ".") then
    let suffix := pattern.drop 1
    domain == suffix || hasSuffix domain pattern
  else if hasSuffix domain (lit "." ++ pattern) then true
  else if ¬ contains pattern (lit ".") then
    domain == pattern || hasPrefix domain (pattern ++ lit ".") ||
      contains domain (lit "." ++ pattern ++ lit ".") || hasSuffix domain (lit "." ++ pattern)
  else false

def domainEndsWith (domain suffix : GoString) : Bool :=
  hasSuffix (toLower lower domain) (toLower lower suffix)

def domainRegex (regexp : GoString → Option (GoString → Bool)) (domain pattern : GoString) :
    Option Bool :=
  (regexp pattern).map fun re => re (toLower lower domain)

def ipInCIDR (ip cidr : GoString) : Bool :=
  match parseIP ip, parseCIDR cidr with
  | some ip, some net => net.contains ip
  | _, _ => false

def queryTypeIn (queryType : GoString) (types : List GoString) : Bool :=
  types.any fun t => toUpper upper t == toUpper upper queryType

end

/-! ## Tokens -/

inductive Token where
  | word (w : GoString)
  | text (body : GoString)
  | bang
  | lparen
  | rparen
  | comma
  | equals
  | op (c : Connective)
  | bad
  deriving DecidableEq

inductive Mode where
  | idle
  | word (w : GoString)
  | symbol (b : UInt8)
  | text (body : GoString)
  | escape (body : GoString)
  deriving DecidableEq

def isSpaceByte (b : UInt8) : Bool := [0x20, 0x09, 0x0A, 0x0D].contains b

def isWordByte (b : UInt8) : Bool :=
  isDigit b || (0x41 ≤ b && b ≤ 0x5A) || (0x61 ≤ b && b ≤ 0x7A) || b == byte '_'

def single : List (UInt8 × Token) :=
  [(byte '(', .lparen), (byte ')', .rparen), (byte ',', .comma)]

def double : List ((UInt8 × UInt8) × Token) :=
  [((byte '=', byte '='), .equals), ((byte '&', byte '&'), .op .and),
    ((byte '|', byte '|'), .op .or), ((byte '!', byte '='), .bad)]

namespace Mode

def start (b : UInt8) : List Token × Mode :=
  if isSpaceByte b then ([], .idle)
  else if isWordByte b then ([], .word [b])
  else if b = byte '"' then ([], .text [])
  else if b ∈ double.map (·.1.1) then ([], .symbol b)
  else ([(single.lookup b).getD .bad], .idle)

def lone (b : UInt8) : Token := if b = byte '!' then .bang else .bad

def flush : Mode → List Token
  | .idle => []
  | .word w => [.word w]
  | .symbol b => [lone b]
  | .text _ | .escape _ => [.bad]

def step : Mode → UInt8 → List Token × Mode
  | .idle, b => start b
  | .word w, b =>
    if isWordByte b then ([], .word (w ++ [b])) else (.word w :: (start b).1, (start b).2)
  | .symbol a, b =>
    match double.lookup (a, b) with
    | some t => ([t], .idle)
    | none => (lone a :: (start b).1, (start b).2)
  | .text body, b =>
    if b = byte '"' then ([.text body], .idle)
    else if b = byte '\\' then ([], .escape (body ++ [b]))
    else ([], .text (body ++ [b]))
  | .escape body, b => ([], .text (body ++ [b]))

end Mode

def feed : Mode → GoString → List Token × Mode
  | m, [] => ([], m)
  | m, b :: s => ((m.step b).1 ++ (feed (m.step b).2 s).1, (feed (m.step b).2 s).2)

def lex (s : GoString) : List Token := (feed .idle s).1 ++ (feed .idle s).2.flush

/-! ## Formulas -/

def Token.turn : Token → Turn
  | .lparen => .opening
  | .rparen => .closing
  | _ => .level

def Token.isName : Token → Bool
  | .word _ => true
  | _ => false

def exprLexicon : Lexicon Token where
  bang := .bang
  lparen := .lparen
  rparen := .rparen
  op := .op
  turn := Token.turn
  name := Token.isName
  plain t := t != .bad
  turn_bang := rfl
  turn_lparen := rfl
  turn_rparen := rfl
  turn_op _ := rfl
  op_ne := by decide
  name_lparen := rfl
  bang_ne_op _ := by simp
  plain_bang := rfl
  plain_lparen := rfl
  plain_rparen := rfl
  plain_op c := by cases c <;> rfl

/-! ## Meaning -/

def fieldValue (ctx : Context) (w : GoString) : Option GoString :=
  if w = lit "Domain" then some ctx.domain
  else if w = lit "ClientIP" then some ctx.clientIP
  else if w = lit "QueryType" then some ctx.queryType
  else none

section

variable (lower upper : Nat → Nat)

def callFunction (f x : GoString) (args : List GoString) : Option Bool :=
  if f = lit "QueryTypeIn" then some (queryTypeIn upper x args)
  else
    match args with
    | [arg] =>
      if f = lit "DomainMatches" then some (domainMatches lower x arg)
      else if f = lit "DomainEndsWith" then some (domainEndsWith lower x arg)
      else if f = lit "IPInCIDR" then some (ipInCIDR x arg)
      else none
    | _ => none

variable (literal : GoString → Option GoString)

def literalArguments : List Token → Option (List GoString)
  | [.rparen] => some []
  | .comma :: .text body :: toks =>
    (literal body).bind fun v => (literalArguments toks).map (v :: ·)
  | _ => none

/-- A comparison or a call; `none` if the atom is neither. -/
def atomValue (ctx : Context) : List Token → Option Bool
  | [.word field, .equals, .text body] =>
    (fieldValue ctx field).bind fun x => (literal body).map fun v => x == v
  | .word f :: .lparen :: .word field :: toks =>
    (fieldValue ctx field).bind fun x =>
      (literalArguments literal toks).bind fun args => callFunction lower upper f x args
  | _ => none

def atomHolds (ctx : Context) (toks : List Token) : Bool :=
  (atomValue lower upper literal ctx toks).getD false

def Understood (toks : List Token) : Prop :=
  ∀ ctx, (atomValue lower upper literal ctx toks).isSome

variable (printable : Nat → Bool)

/-- The library gives a text it compiles the meaning of its grammar.  It compiles comparisons and
calls, alone or two of them joined, and no text with a literal it refuses.  A quoted string of
valid UTF-8 reads back, and a dot in a literal is a dot. -/
structure Understands (lang : ExprLang) : Prop where
  run : ∀ {text : GoString} {f : Formula (List Token)},
    exprLexicon.Stands (.list .or) (lex text) f →
    (∀ a ∈ f.atoms, Understood lower upper literal a) → lang.compiles text = true →
    ∀ ctx, lang.run text ctx = some (f.eval (atomHolds lower upper literal ctx))
  compiles : ∀ {text : GoString} {f : Formula (List Token)},
    exprLexicon.Stands (.list .or) (lex text) f →
    (∀ a ∈ f.atoms, Understood lower upper literal a) → f.atoms.length ≤ 2 →
    lang.compiles text = true
  refuses : ∀ {text body : GoString}, .bad ∉ lex text → .text body ∈ lex text →
    literal body = none → lang.compiles text = false
  unquotes : ∀ s, validString s = true → literal (quoteBody printable s) = some s
  dot : ∀ body, literal (byte '.' :: body) = (literal body).map (byte '.' :: ·)

end

end GloryHole.Policy
