import GloryHole.Go.Strings

/-!
# Domain patterns

Patterns are exact names, wildcards `*.name` or regular expressions, told apart by
their text.  `compile` is `regexp.Compile`: the language of the expression as a
predicate on strings, or `none` for text that is no expression.
-/

set_option linter.dupNamespace false

namespace GloryHole.Pattern

open Go

inductive PatternType where
  | patternTypeExact
  | patternTypeWildcard
  | patternTypeRegex
  deriving DecidableEq

structure Pattern where
  raw : GoString
  type : PatternType
  compiled : Option (GoString → Bool) := none

def regexChars : List UInt8 :=
  [byte '(', byte ')', byte '[', byte ']', 0x7B, 0x7D, byte '^', byte '$', byte '|', 0x5C,
    byte '+', byte '?']

def isRegexPattern (pattern : GoString) : Bool :=
  regexChars.any (containsByte pattern) || contains pattern (lit ".*") ||
    contains pattern (lit ".+")

def parsePattern (compile : GoString → Option (GoString → Bool)) (pattern : GoString) :
    Option Pattern :=
  if pattern = [] then none
  else if hasPrefix pattern (lit "*.") then
    some { raw := pattern, type := .patternTypeWildcard }
  else if isRegexPattern pattern then
    (compile pattern).map fun re =>
      { raw := pattern, type := .patternTypeRegex, compiled := some re }
  else some { raw := pattern, type := .patternTypeExact }

def Pattern.matches (p : Pattern) (domain : GoString) : Bool :=
  match p.type with
  | .patternTypeExact => domain == p.raw
  | .patternTypeWildcard =>
    let suffix := trimPrefix p.raw (lit "*.")
    hasSuffix domain suffix && domain != suffix
  | .patternTypeRegex =>
    match p.compiled with
    | none => false
    | some re => re domain

structure Matcher where
  exact : List GoString := []
  wildcard : List Pattern := []
  regex : List Pattern := []

def Matcher.add (m : Matcher) (p : Pattern) : Matcher :=
  match p.type with
  | .patternTypeExact => { m with exact := m.exact.insert p.raw }
  | .patternTypeWildcard => { m with wildcard := m.wildcard ++ [p] }
  | .patternTypeRegex => { m with regex := m.regex ++ [p] }

/-- `NewMatcher` gives up at the first pattern that does not parse. -/
def newMatcher (compile : GoString → Option (GoString → Bool)) (patterns : List GoString) :
    Option Matcher :=
  (patterns.mapM (parsePattern compile)).map fun ps => ps.foldl Matcher.add {}

/-- Exact patterns first, then wildcards, then regular expressions. -/
def Matcher.matchPattern (m : Matcher) (domain : GoString) : Option Pattern :=
  if domain ∈ m.exact then some { raw := domain, type := .patternTypeExact }
  else
    match m.wildcard.find? (·.matches domain) with
    | some p => some p
    | none => m.regex.find? (·.matches domain)

end GloryHole.Pattern
