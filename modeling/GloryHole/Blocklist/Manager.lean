import GloryHole.Blocklist.FlatList
import GloryHole.Go.Utf8
import GloryHole.Pattern.Pattern

/-!
# The blocklist manager

`update` downloads the configured lists and installs their merge; `matchDomain`
answers whether a name is blocked, by the lists or by a pattern.
-/

namespace GloryHole.Blocklist

open Go FlatBlocklist

/-!
## Reading a blocklist text

The text of a list is scanned by lines, a name is extracted from each line in one of
the supported formats, and the names are sorted and made unique.
-/

def maxBlocklistSize : Nat := 100 * 1024 * 1024

/-- The longest line a `bufio.Scanner` takes: the line and its newline fill the buffer. -/
def maxLineLength : Nat := 64 * 1024 - 1

def rawLines (text : GoString) : List GoString :=
  let pieces := splitByte (byte '\n') text
  if pieces.getLast? = some [] then pieces.dropLast else pieces

/-- The lines a `bufio.Scanner` yields, without a final carriage return, or `none` when
one is too long for it. -/
def scanLines (text : GoString) : Option (List GoString) :=
  if (rawLines text).any fun l => maxLineLength < l.length then none
  else some ((rawLines text).map fun l => trimSuffix l (lit "\r"))

def isLocalhost (domain : GoString) : Bool :=
  domain == lit "localhost" || domain == lit "localhost.localdomain"

def acceptField (domain : GoString) : GoString :=
  if isLocalhost domain then []
  else if containsByte domain (byte '#') then []
  else domain

def stripComment (line : GoString) : GoString :=
  match indexByte line (byte '#') with
  | some idx => line.take idx
  | none => line

/-- The adblock format `||domain^`. -/
def adblockDomain (line : GoString) : GoString :=
  let domain := trimPrefix line (lit "||")
  let domain := domain.takeWhile (· != byte '^')
  let domain := trimSpace domain
  if containsByte domain (byte '#') then [] else domain

/-- The hosts format `address domain` and the plain format. -/
def hostsDomain (line : GoString) : GoString :=
  match fields (trimPrefix line (lit "*.")) with
  | [domain] => acceptField domain
  | first :: domain :: _ =>
    if containsByte first (byte '.') || containsByte first (byte ':') then
      acceptField domain
    else []
  | [] => []

def extractDomain (line : GoString) : GoString :=
  if indexByte line (byte '#') = some 0 then []
  else
    let line := stripComment line
    if hasPrefix line (lit "||") && containsByte line (byte '^') then adblockDomain line
    else hostsDomain line

def ensureDot (domain : GoString) : GoString :=
  if hasSuffix domain (lit ".") then domain else domain ++ lit "."

def parseLine (text : GoString) : Option GoString :=
  let line := trimSpace text
  if line = [] || hasPrefix line (lit "#") then none
  else
    let domain := extractDomain line
    if domain = [] then none else some (ensureDot domain)

def parseToSlice (text : GoString) : Option (List GoString) :=
  (scanLines text).map fun lines => lines.filterMap parseLine

def dedupSorted : List GoString → List GoString
  | [] => []
  | [d] => [d]
  | d :: e :: rest => if d = e then dedupSorted (e :: rest) else d :: dedupSorted (e :: rest)

/-- A round of that pass as it is done in place: `r` reads, and the next name kept goes to `w`. -/
def compactStep (s : List GoString × Nat) (r : Nat) : List GoString × Nat :=
  let (domains, w) := s
  if domains[r]? ≠ domains[r - 1]? then (domains.set w (domains[r]?.getD []), w + 1) else s

def compact (domains : List GoString) : List GoString :=
  if domains.length > 1 then
    let (domains, w) := (List.range' 1 (domains.length - 1)).foldl compactStep (domains, 1)
    domains.take w
  else domains

def addLine (domains : List GoString) (line : GoString) : List GoString :=
  match parseLine line with
  | none => domains
  | some domain => domains.insert domain

/-- The parser of `Download`; a map is the list of its keys. -/
def parseHostsFile (text : GoString) : Option (List GoString) :=
  (scanLines text).map fun lines => lines.foldl addLine []

def downloadSorted (text : GoString) : Option (List GoString) :=
  (parseToSlice (text.take maxBlocklistSize)).map fun domains =>
    dedupSorted (sortStrings domains)

/-! ## The manager -/

def maxTrackedSources : Nat := 64

structure Manager where
  blocklists : List GoString
  current : FlatBlocklist := {}
  patterns : Option Pattern.Matcher := none
  sourceNames : List GoString := []
  lastSize : Nat := 0

/-- The outcome of one request: the body, or `none` for an error or a bad status. -/
abbrev Response := Option GoString

/-- The bit of the source at index `idx`; sources past the 64th have none. -/
def sourceBit (idx : Nat) : UInt64 := if idx < maxTrackedSources then 1 <<< UInt64.ofNat idx else 0

def downloadList (idx : Nat) (response : Response) : Option SortedList :=
  match response.bind downloadSorted with
  | none => none
  | some sorted => some { domains := sorted, mask := sourceBit idx }

def downloadLists (urls : List GoString) (responses : List Response) : List SortedList :=
  (urls.zip responses).zipIdx.filterMap fun entry => downloadList entry.2 entry.1.2

def downloadAndMerge (urls : List GoString) (responses : List Response) :
    Option FlatBlocklist :=
  if urls = [] then some {} else buildFromSortedLists (downloadLists urls responses)

/-- `Update`; `none` only if the merge would not terminate. -/
def Manager.update (m : Manager) (responses : List Response) : Option Manager :=
  if m.blocklists = [] then some m
  else
    (downloadAndMerge m.blocklists responses).map fun flat =>
      { m with
        current := flat
        lastSize := flat.len
        sourceNames := m.blocklists.take maxTrackedSources }

def Manager.sourcesFromMask (m : Manager) (mask : UInt64) : List GoString :=
  let named := m.sourceNames.zipIdx.filter fun entry =>
    entry.2 < maxTrackedSources && mask &&& sourceBit entry.2 != 0
  let overflow := mask = 0 ∧ m.sourceNames ≠ []
  named.map (·.1) ++ if overflow then [lit "additional sources"] else []

structure MatchResult where
  blocked : Bool := false
  kind : Option Kind := none
  pattern : GoString := []
  sources : List GoString := []
  deriving DecidableEq

def patternKind : Pattern.PatternType → Kind
  | .patternTypeExact => .exact
  | .patternTypeWildcard => .wildcard
  | .patternTypeRegex => .regex

def queryName (lower : Nat → Nat) (domain : GoString) : GoString :=
  ensureDot (toLower lower domain)

def Manager.matchDomain (lower : Nat → Nat) (m : Manager) (domain : GoString) :
    MatchResult :=
  if domain = [] then {}
  else
    let fqdn := queryName lower domain
    let short := fqdn.dropLast
    match m.current.lookupSubdomains fqdn with
    | some (mask, kind) =>
      { blocked := true, kind := some kind, sources := m.sourcesFromMask mask }
    | none =>
      match m.patterns.bind (·.matchPattern short) with
      | some p =>
        { blocked := true, kind := some (patternKind p.type), pattern := p.raw,
          sources := [lit "pattern"] }
      | none => {}

end GloryHole.Blocklist
