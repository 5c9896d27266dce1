import GloryHole.Go.Networks
import GloryHole.Go.Utf8

/-!
# Local records

The records the handler answers from before anything else: a map from normalised names to their
records, and a list of wildcard records.  The lookups of addresses look at the wildcards only for a
name without any exact record, that of aliases for one without an enabled exact alias, the others
always.
-/

namespace GloryHole.LocalRecords

open Go

inductive RecordType where
  | a | aaaa | cname | mx | txt | srv | ptr | ns | soa | caa
  deriving DecidableEq

structure LocalRecord where
  domain : GoString
  type : RecordType
  target : GoString := []
  ns : GoString := []
  mbox : GoString := []
  caaTag : GoString := []
  caaValue : GoString := []
  ips : List IP := []
  txtRecords : List GoString := []
  serial : UInt32 := 0
  ttl : UInt32 := 0
  refresh : UInt32 := 0
  retry : UInt32 := 0
  expire : UInt32 := 0
  minttl : UInt32 := 0
  priority : UInt16 := 0
  weight : UInt16 := 0
  port : UInt16 := 0
  caaFlag : UInt8 := 0
  wildcard : Bool := false
  enabled : Bool := true
  deriving DecidableEq

structure Manager where
  records : List (GoString × List LocalRecord) := []
  wildcards : List LocalRecord := []
  deriving DecidableEq

/-! ## Names -/

def normalizeDomain (lower : Nat → Nat) (domain : GoString) : GoString :=
  let domain := toLower lower (trimSpace domain)
  if hasSuffix domain (lit ".") then domain else domain ++ lit "."

def matchesWildcard (domain pattern : GoString) : Bool :=
  if hasPrefix pattern (lit "*.") then
    let suffix := pattern.drop 2
    if !hasSuffix domain suffix || domain == suffix then false
    else
      let label := domain.take (domain.length - suffix.length)
      !containsByte (trimSuffix label (lit ".")) (byte '.')
  else domain == pattern

/-! ## Sorting -/

/-- The inner loop of the sorts of `LookupMX` and `LookupSRV`: the element in place `i` is
exchanged with every later one it is worse than. -/
def swapPass {α : Type} (worse : α → α → Bool) : α → List α → α × List α
  | x, [] => (x, [])
  | x, y :: ys =>
    if worse x y then
      let (z, zs) := swapPass worse y ys
      (z, x :: zs)
    else
      let (z, zs) := swapPass worse x ys
      (z, y :: zs)

def swapSort {α : Type} (worse : α → α → Bool) : Nat → List α → List α
  | n + 1, x :: xs =>
    let (z, zs) := swapPass worse x xs
    z :: swapSort worse n zs
  | _, xs => xs

/-! ## Lookups -/

def LocalRecord.isOf (r : LocalRecord) (t : RecordType) : Bool := r.type = t && r.enabled

/-- The addresses of the records and the last TTL that is not zero; `none` if there is no
address. -/
def extractIPs (records : List LocalRecord) (t : RecordType) : Option (List IP × UInt32) :=
  let records := records.filter (·.isOf t)
  let ips := records.flatMap (·.ips)
  let ttl := records.foldl (fun ttl r => if r.ttl > 0 then r.ttl else ttl) 300
  if ips = [] then none else some (ips, ttl)

namespace Manager

variable (lower : Nat → Nat) (m : Manager)

/-- `matchWildcard`: the first wildcard of the type decides, with or without addresses. -/
def matchWildcard (domain : GoString) (t : RecordType) : Option (List IP × UInt32) :=
  match m.wildcards.find? fun wc => wc.isOf t && matchesWildcard domain wc.domain with
  | none => none
  | some wc => if wc.ips = [] then none else some (wc.ips, wc.ttl)

def lookupAddresses (t : RecordType) (domain : GoString) : Option (List IP × UInt32) :=
  let domain := normalizeDomain lower domain
  match m.records.lookup domain with
  | some records => extractIPs records t
  | none => m.matchWildcard domain t

def lookupA : GoString → Option (List IP × UInt32) := m.lookupAddresses lower .a
def lookupAAAA : GoString → Option (List IP × UInt32) := m.lookupAddresses lower .aaaa

def lookupCNAME (domain : GoString) : Option (GoString × UInt32) :=
  let domain := normalizeDomain lower domain
  match ((m.records.lookup domain).getD []).find? (·.isOf .cname) with
  | some r => some (r.target, r.ttl)
  | none =>
    match m.wildcards.find? fun wc => wc.isOf .cname && matchesWildcard domain wc.domain with
    | some wc => some (wc.target, wc.ttl)
    | none => none

/-- The records the other lookups collect: the exact ones, then the wildcards. -/
def collect (t : RecordType) (domain : GoString) : List LocalRecord :=
  let domain := normalizeDomain lower domain
  ((m.records.lookup domain).getD []).filter (·.isOf t) ++
    m.wildcards.filter fun wc => wc.isOf t && matchesWildcard domain wc.domain

def lookupTXT : GoString → List LocalRecord := m.collect lower .txt
def lookupPTR : GoString → List LocalRecord := m.collect lower .ptr
def lookupNS : GoString → List LocalRecord := m.collect lower .ns
def lookupSOA : GoString → List LocalRecord := m.collect lower .soa
def lookupCAA : GoString → List LocalRecord := m.collect lower .caa

def lookupMX (domain : GoString) : List LocalRecord :=
  let result := m.collect lower .mx domain
  swapSort (fun x y => x.priority > y.priority) result.length result

def lookupSRV (domain : GoString) : List LocalRecord :=
  let result := m.collect lower .srv domain
  swapSort
    (fun x y => x.priority > y.priority || (x.priority == y.priority && x.weight < y.weight))
    result.length result

/-- The loop of `ResolveCNAME`: the steps left, the names met so far and the least TTL. -/
def resolveLoop : Nat → List GoString → GoString → UInt32 → Option (List IP × UInt32)
  | 0, _, _, _ => none
  | depth + 1, visited, domain, minTTL =>
    if domain ∈ visited then none
    else
      match m.lookupCNAME lower domain with
      | some (target, ttl) =>
        resolveLoop depth (domain :: visited) target (if ttl < minTTL then ttl else minTTL)
      | none =>
        match m.lookupA lower domain with
        | some (ips, ttl) => some (ips, if ttl < minTTL then ttl else minTTL)
        | none =>
          match m.lookupAAAA lower domain with
          | some (ips, ttl) => some (ips, if ttl < minTTL then ttl else minTTL)
          | none => none

def resolveCNAME (domain : GoString) (maxDepth : Int) : Option (List IP × UInt32) :=
  let maxDepth := if maxDepth ≤ 0 then 10 else maxDepth
  m.resolveLoop lower maxDepth.toNat [] (normalizeDomain lower domain) 300

end Manager

end GloryHole.LocalRecords
