import GloryHole.Go.Sort

/-!
# The packed blocklist

`FlatBlocklist` keeps all names in one byte slice, each one ended by a NUL byte,
with the sorted start offsets and the source masks beside it.  It is built from a
map or by a k-way merge of sorted lists, and searched by bisection on the offsets.
-/

namespace GloryHole.Blocklist

open Go

structure FlatBlocklist where
  data : List UInt8 := []
  offs : List UInt32 := []
  masks : List UInt64 := []
  deriving DecidableEq

/-- The names of one source, sorted, and the bit that stands for the source. -/
structure SortedList where
  domains : List GoString
  mask : UInt64
  deriving DecidableEq

namespace FlatBlocklist

def appendEntry (f : FlatBlocklist) (name : GoString) (mask : UInt64) : FlatBlocklist :=
  { data := f.data ++ name ++ [0]
    offs := f.offs ++ [UInt32.ofNat f.data.length]
    masks := f.masks ++ [mask] }

def len (f : FlatBlocklist) : Nat := f.offs.length

/-- `int(f.offs[i])`; every caller stays below the length of `offs`. -/
def start (f : FlatBlocklist) (i : Nat) : Nat := (f.offs[i]?.getD 0).toNat

/-- The slice from the offset to the first NUL byte, or to the end of the data as a
`uint32`. -/
def domainAt (f : FlatBlocklist) (i : Nat) : GoString :=
  ((f.data.take (f.data.length % 2 ^ 32)).drop (f.start i)).takeWhile (· != 0)

def cmpFrom (data : List UInt8) : Nat → GoString → Int
  | pos, [] =>
    match data[pos]? with
    | some db => if db != 0 then 1 else 0
    | none => 0
  | pos, tb :: target =>
    match data[pos]? with
    | none => -1
    | some db =>
      if db = 0 then -1
      else if db ≠ tb then (if db < tb then -1 else 1)
      else cmpFrom data (pos + 1) target

def cmpDomainAt (f : FlatBlocklist) (i : Nat) (target : GoString) : Int :=
  cmpFrom f.data (f.start i) target

def lookup (f : FlatBlocklist) (domain : GoString) : Option UInt64 :=
  if f.len = 0 then none
  else
    let idx := search f.len fun i => decide (f.cmpDomainAt i domain ≥ 0)
    if idx < f.len ∧ f.cmpDomainAt idx domain = 0 then f.masks[idx]? else none

inductive Kind where
  | exact
  | subdomain
  | wildcard
  | regex
  deriving DecidableEq

def parentWalk (f : FlatBlocklist) : Nat → GoString → Option UInt64
  | 0, _ => none
  | fuel + 1, parent =>
    match indexByte parent (byte '.') with
    | none => none
    | some idx =>
      if idx + 1 ≥ parent.length then none
      else
        let next := parent.drop (idx + 1)
        if next = lit "." ∨ next = [] then none
        else
          match f.lookup next with
          | some mask => some mask
          | none => f.parentWalk fuel next

def lookupSubdomains (f : FlatBlocklist) (fqdn : GoString) : Option (UInt64 × Kind) :=
  if f.len = 0 then none
  else
    match f.lookup fqdn with
    | some mask => some (mask, .exact)
    | none => (f.parentWalk fqdn.length fqdn).map fun mask => (mask, .subdomain)

end FlatBlocklist

open FlatBlocklist

/-- `BuildFlatBlocklist`; a Go map is a list of its entries with distinct keys, in
the order the iteration happens to take. -/
def buildFlatBlocklist (m : List (GoString × UInt64)) : FlatBlocklist :=
  (sortStrings (m.map (·.1))).foldl
    (fun f k => f.appendEntry k ((m.lookup k).getD 0)) {}

/-! ## The k-way merge -/

def SortedList.head (l : SortedList) (cursor : Nat) : Option GoString := l.domains[cursor]?

def lesser (best : GoString) : Option GoString → GoString
  | none => best
  | some d => if best = [] ∨ d < best then d else best

/-- The first inner loop of a round: the least name under a cursor, `""` when all
lists are exhausted. -/
def minDomain (lists : List SortedList) (cursors : List Nat) : GoString :=
  (lists.zip cursors).foldl (fun best lc => lesser best (lc.1.head lc.2)) []

def mergeMask (name : GoString) (lists : List SortedList) (cursors : List Nat) : UInt64 :=
  (lists.zip cursors).foldl (fun mask lc =>
    if lc.1.head lc.2 = some name then mask ||| lc.1.mask else mask) 0

def advanceCursors (name : GoString) (lists : List SortedList) (cursors : List Nat) :
    List Nat :=
  lists.zipWith (fun l c => if l.head c = some name then c + 1 else c) cursors

/-- The rounds of the merge.  The source has no bound on them; `none` stands for a
loop still running when the rounds are used up. -/
def mergeLoop (lists : List SortedList) :
    Nat → List Nat → FlatBlocklist → Option FlatBlocklist
  | 0, _, _ => none
  | fuel + 1, cursors, out =>
    let name := minDomain lists cursors
    if name = [] then some out
    else
      mergeLoop lists fuel (advanceCursors name lists cursors)
        (out.appendEntry name (mergeMask name lists cursors))

def totalDomains (lists : List SortedList) : Nat :=
  (lists.map fun l => l.domains.length).sum

/-- `BuildFromSortedLists`, with one round for each name and one to find the lists
exhausted. -/
def buildFromSortedLists (lists : List SortedList) : Option FlatBlocklist :=
  if totalDomains lists = 0 then some {}
  else mergeLoop lists (totalDomains lists + 1) (lists.map fun _ => 0) {}

end GloryHole.Blocklist
