import Mathlib.Data.List.Nodup
import Mathlib.Logic.Function.Basic
import GloryHole.Go.Strings

/-!
# Challenge records in a fixed Cloudflare zone

`cfZoneProvider`: `Present` deletes every TXT record of the challenge's name and creates its
own, `CleanUp` deletes the record whose id it kept for the token.  The API is a set of TXT
records that answers every request; an id is a number and given once.
-/

namespace GloryHole.Dns.Acme

open Go

structure Record where
  id : Nat
  name : GoString
  content : GoString
  deriving DecidableEq

/-! ## The API -/

structure Zone where
  records : List Record
  nextID : Nat
  ids_lt : ∀ r ∈ records, r.id < nextID
  ids_nodup : (records.map (·.id)).Nodup

namespace Zone

def list (z : Zone) (name : GoString) : List Nat :=
  (z.records.filter (·.name == name)).map (·.id)

def delete (z : Zone) (id : Nat) : Zone where
  records := z.records.filter (·.id != id)
  nextID := z.nextID
  ids_lt r hr := z.ids_lt r (List.mem_of_mem_filter hr)
  ids_nodup := (List.filter_sublist.map _).nodup z.ids_nodup

theorem created_lt (z : Zone) (name content : GoString) :
    ∀ r ∈ z.records ++ [⟨z.nextID, name, content⟩], r.id < z.nextID + 1 := by
  intro r hr
  rcases List.mem_append.mp hr with hr | hr
  · exact Nat.lt_succ_of_lt (z.ids_lt r hr)
  · rw [List.mem_singleton.mp hr]
    exact Nat.lt_succ_self _

theorem created_nodup (z : Zone) (name content : GoString) :
    ((z.records ++ [(⟨z.nextID, name, content⟩ : Record)]).map (·.id)).Nodup := by
  rw [List.map_append, List.map_singleton]
  refine List.Nodup.append z.ids_nodup (List.nodup_singleton _) ?_
  rw [List.disjoint_singleton]
  intro hmem
  obtain ⟨r, hr, hid⟩ := List.mem_map.mp hmem
  exact absurd hid (Nat.ne_of_lt (z.ids_lt r hr))

def create (z : Zone) (name content : GoString) : Zone where
  records := z.records ++ [⟨z.nextID, name, content⟩]
  nextID := z.nextID + 1
  ids_lt := z.created_lt name content
  ids_nodup := z.created_nodup name content

end Zone

/-! ## The provider -/

structure Challenge where
  domain : GoString
  token : GoString
  keyAuth : GoString
  deriving DecidableEq

/-- `dns01.GetChallengeInfo`: the name of the record for a domain, without the dot at its end,
and the value for a key authorization. -/
structure ChallengeInfo where
  name : GoString → GoString
  value : GoString → GoString

structure Provider where
  zone : Zone
  recordIDs : GoString → Option Nat

namespace Provider

def deleteRecord (p : Provider) (id : Nat) : Provider := { p with zone := p.zone.delete id }

def purgeStaleRecords (p : Provider) (fqdn : GoString) : Provider :=
  (p.zone.list fqdn).foldl deleteRecord p

def content (value : GoString) : GoString := lit "\"" ++ value ++ lit "\""

def present (info : ChallengeInfo) (p : Provider) (c : Challenge) : Provider :=
  let fqdn := info.name c.domain
  let purged := p.purgeStaleRecords fqdn
  { zone := purged.zone.create fqdn (content (info.value c.keyAuth))
    recordIDs := Function.update purged.recordIDs c.token (some purged.zone.nextID) }

def cleanUp (p : Provider) (c : Challenge) : Provider :=
  match p.recordIDs c.token with
  | none => p
  | some id => { p with recordIDs := Function.update p.recordIDs c.token none }.deleteRecord id

end Provider

/-- The domain a host's challenge is for: that of a wildcard is its base. -/
def challengeDomain (host : GoString) : GoString := trimPrefix host (lit "*.")

inductive Call where
  | present (c : Challenge)
  | cleanUp (c : Challenge)

def Call.challenge : Call → Challenge
  | .present c => c
  | .cleanUp c => c

structure Session where
  provider : Provider
  pending : List Challenge

def Session.start (zone : Zone) : Session := ⟨⟨zone, fun _ => none⟩, []⟩

def Session.step (info : ChallengeInfo) (s : Session) : Call → Session
  | .present c => ⟨s.provider.present info c, s.pending.insert c⟩
  | .cleanUp c => ⟨s.provider.cleanUp c, s.pending.filter (· ≠ c)⟩

end GloryHole.Dns.Acme
