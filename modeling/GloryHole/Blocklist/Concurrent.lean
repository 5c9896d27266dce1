import Mathlib.Logic.Function.Basic
import GloryHole.Blocklist.Manager

/-!
# Updates, configuration changes and matches side by side

`Update` in the steps between which another goroutine can run: it reads the configuration for the
early return, for the sources and for their names, and publishes the list and then the names.
`Match` loads the list, then the names.  A list carries its generation: the sources it was merged
from and what they answered.
-/

namespace GloryHole.Blocklist

open Go FlatBlocklist

structure Generation where
  urls : List GoString
  responses : List Response
  deriving DecidableEq

inductive UpdatePhase where
  | idle
  | checked
  | holding
  | downloading (urls : List GoString)
  | merged (gen : Generation) (flat : FlatBlocklist)
  | published
  | naming (names : List GoString)
  | named

/-- How far a call of `Match` is; an answer keeps the generation and the names it used. -/
inductive MatchPhase where
  | idle
  | found (query : GoString) (gen : Generation) (mask : UInt64) (kind : Kind)
  | answered (query : GoString) (gen : Generation) (names : List GoString)
      (result : MatchResult)
  deriving DecidableEq

structure World where
  manager : Manager
  generation : Generation
  locked : Bool
  updates : Nat → UpdatePhase
  matching : Nat → MatchPhase

def World.start (urls : List GoString) (patterns : Option Pattern.Matcher) : World where
  manager := { blocklists := urls, patterns := patterns }
  generation := ⟨[], []⟩
  locked := false
  updates _ := .idle
  matching _ := .idle

inductive Action where
  | updateConfig (urls : List GoString)
  | begin (t : Nat)
  | tryLock (t : Nat)
  | readURLs (t : Nat)
  | download (t : Nat) (responses : List Response)
  | publish (t : Nat)
  | readNames (t : Nat)
  | storeNames (t : Nat)
  | finish (t : Nat)
  | search (t : Nat) (query : GoString)
  | answer (t : Nat)

def World.setUpdate (w : World) (t : Nat) (phase : UpdatePhase) : World :=
  { w with updates := Function.update w.updates t phase }

def World.setMatching (w : World) (t : Nat) (phase : MatchPhase) : World :=
  { w with matching := Function.update w.matching t phase }

def Manager.listResult (m : Manager) (mask : UInt64) (kind : Kind) : MatchResult :=
  { blocked := true, kind := some kind, sources := m.sourcesFromMask mask }

/-- The first half of `Match`: a name that the list does not have is answered by the
patterns. -/
def World.search (lower : Nat → Nat) (w : World) (t : Nat) (query : GoString) : World :=
  if query = [] then w.setMatching t (.answered query w.generation [] {})
  else
    match w.manager.current.lookupSubdomains (queryName lower query) with
    | some (mask, kind) => w.setMatching t (.found query w.generation mask kind)
    | none =>
      w.setMatching t (.answered query w.generation []
        ({ w.manager with current := {} }.matchDomain lower query))

def World.step (lower : Nat → Nat) (w : World) : Action → World
  | .updateConfig urls => { w with manager := { w.manager with blocklists := urls } }
  | .begin t =>
    match w.updates t with
    | .idle => if w.manager.blocklists = [] then w else w.setUpdate t .checked
    | _ => w
  | .tryLock t =>
    match w.updates t with
    | .checked =>
      if w.locked then w.setUpdate t .idle
      else { w.setUpdate t .holding with locked := true }
    | _ => w
  | .readURLs t =>
    match w.updates t with
    | .holding => w.setUpdate t (.downloading w.manager.blocklists)
    | _ => w
  | .download t responses =>
    match w.updates t with
    | .downloading urls =>
      match downloadAndMerge urls responses with
      | some flat => w.setUpdate t (.merged ⟨urls, responses⟩ flat)
      | none => w
    | _ => w
  | .publish t =>
    match w.updates t with
    | .merged gen flat =>
      { w.setUpdate t .published with
        manager := { w.manager with current := flat, lastSize := flat.len }
        generation := gen }
    | _ => w
  | .readNames t =>
    match w.updates t with
    | .published => w.setUpdate t (.naming (w.manager.blocklists.take maxTrackedSources))
    | _ => w
  | .storeNames t =>
    match w.updates t with
    | .naming names =>
      { w.setUpdate t .named with manager := { w.manager with sourceNames := names } }
    | _ => w
  | .finish t =>
    match w.updates t with
    | .named => { w.setUpdate t .idle with locked := false }
    | _ => w
  | .search t query =>
    match w.matching t with
    | .found _ _ _ _ => w
    | _ => w.search lower t query
  | .answer t =>
    match w.matching t with
    | .found query gen mask kind =>
      w.setMatching t (.answered query gen w.manager.sourceNames
        (w.manager.listResult mask kind))
    | _ => w

def World.Returns (w : World) : Action → Prop
  | .begin t => w.updates t = .idle ∧ w.manager.blocklists = []
  | .tryLock t => w.updates t = .checked ∧ w.locked = true
  | .finish t => w.updates t = .named
  | _ => False

def updateSteps (t : Nat) (responses : List Response) : List Action :=
  [.begin t, .tryLock t, .readURLs t, .download t responses, .publish t, .readNames t,
    .storeNames t, .finish t]

end GloryHole.Blocklist
