import GloryHole.Config.Types
import GloryHole.LocalRecords.Manager

/-!
# Building the local records

A manager is built from the configuration in three places: at start-up, in the callback for a
changed file, and by the API after an edit.  The first two use the constructors of the records,
with their defaults; the API copies the fields of an entry as they are and leaves the rest to the
validation of `AddRecord`.
-/

namespace GloryHole.LocalRecords

open Go Config

/-! ## `AddRecord` -/

inductive RecordError where
  | invalidRecord
  | invalidDomain
  | invalidIP
  | emptyTarget
  | noIPs
  | noTxtData
  | txtTooLong
  | invalidSOA
  | invalidCAA
  deriving DecidableEq

def validTags : List GoString := [lit "issue", lit "issuewild", lit "iodef"]

def validateData (r : LocalRecord) : Except RecordError Unit :=
  match r.type with
  | .a =>
    if r.ips = [] then .error .noIPs
    else if r.ips.any fun ip => (to4 ip).isNone then .error .invalidIP
    else .ok ()
  | .aaaa =>
    if r.ips = [] then .error .noIPs
    else if r.ips.any fun ip => (to4 ip).isSome then .error .invalidIP
    else .ok ()
  | .cname | .mx | .ptr | .ns => if r.target = [] then .error .emptyTarget else .ok ()
  | .srv =>
    if r.target = [] then .error .emptyTarget
    else if r.port = 0 then .error .invalidRecord
    else .ok ()
  | .txt =>
    if r.txtRecords = [] then .error .noTxtData
    else if r.txtRecords.any fun txt => 255 < txt.length then .error .txtTooLong
    else .ok ()
  | .soa => if r.ns = [] ∨ r.mbox = [] then .error .invalidSOA else .ok ()
  | .caa =>
    if r.caaTag = [] then .error .invalidCAA
    else if r.caaValue = [] then .error .invalidCAA
    else if r.caaTag ∉ validTags then .error .invalidCAA
    else .ok ()

def validateRecord (r : LocalRecord) : Except RecordError Unit :=
  if r.domain = [] then .error .invalidDomain else validateData r

/-- `m.records[domain] = append(m.records[domain], record)`. -/
def appendAt (domain : GoString) (r : LocalRecord) :
    List (GoString × List LocalRecord) → List (GoString × List LocalRecord)
  | [] => [(domain, [r])]
  | group :: groups =>
    if group.1 = domain then (group.1, group.2 ++ [r]) :: groups
    else group :: appendAt domain r groups

def Manager.insert (m : Manager) (r : LocalRecord) : Manager :=
  if r.wildcard then { m with wildcards := m.wildcards ++ [r] }
  else { m with records := appendAt r.domain r m.records }

def Manager.addRecord (lower : Nat → Nat) (m : Manager) (r : LocalRecord) :
    Except RecordError Manager :=
  match validateRecord r with
  | .error err => .error err
  | .ok () => .ok (m.insert { r with domain := normalizeDomain lower r.domain })

/-! ## Constructors -/

section Constructors

variable (lower : Nat → Nat) (domain : GoString)

def newLocalRecord (type : RecordType) : LocalRecord :=
  { domain := normalizeDomain lower domain, type := type, ttl := 300 }

def newARecord (ip : IP) : LocalRecord := { newLocalRecord lower domain .a with ips := [ip] }

def newAAAARecord (ip : IP) : LocalRecord := { newLocalRecord lower domain .aaaa with ips := [ip] }

/-- `NewCNAMERecord`, `NewPTRRecord` and `NewNSRecord` differ in the type only. -/
def newTargetRecord (type : RecordType) (target : GoString) : LocalRecord :=
  { newLocalRecord lower domain type with target := normalizeDomain lower target }

def newCNAMERecord : GoString → LocalRecord := newTargetRecord lower domain .cname
def newPTRRecord : GoString → LocalRecord := newTargetRecord lower domain .ptr
def newNSRecord : GoString → LocalRecord := newTargetRecord lower domain .ns

def newMXRecord (target : GoString) (priority : UInt16) : LocalRecord :=
  { newTargetRecord lower domain .mx target with priority := priority }

def newSRVRecord (target : GoString) (priority weight port : UInt16) : LocalRecord :=
  { newTargetRecord lower domain .srv target with
    priority := priority, weight := weight, port := port }

/-- The mailbox is not normalised. -/
def newSOARecord (ns mbox : GoString) (serial refresh retry expire minttl : UInt32) :
    LocalRecord :=
  { newLocalRecord lower domain .soa with
    ns := normalizeDomain lower ns, mbox := mbox, serial := serial, refresh := refresh
    retry := retry, expire := expire, minttl := minttl }

def newCAARecord (tag value : GoString) (flag : UInt8) : LocalRecord :=
  { newLocalRecord lower domain .caa with caaTag := tag, caaValue := value, caaFlag := flag }

end Constructors

/-! ## Entries -/

def recordTypeOf (type : GoString) : Option RecordType :=
  [(lit "A", .a), (lit "AAAA", .aaaa), (lit "CNAME", .cname), (lit "MX", .mx), (lit "TXT", .txt),
    (lit "SRV", .srv), (lit "PTR", .ptr), (lit "NS", .ns), (lit "SOA", .soa),
    (lit "CAA", .caa)].lookup type

def v4Addresses (ips : List GoString) : List IP := ips.filterMap fun s => (parseIP s).bind to4

def v6Addresses (ips : List GoString) : List IP :=
  ips.filterMap fun s => (parseIP s).bind fun ip => if (to4 ip).isSome then none else to16 ip

/-- A record made for the first address gets all of them if there are more. -/
def withAddresses (make : IP → LocalRecord) (ip : IP) (more : List IP) : LocalRecord :=
  if more = [] then make ip else { make ip with ips := ip :: more }

def applyEntry (e : LocalRecordEntry) (r : LocalRecord) : LocalRecord :=
  { r with ttl := if e.ttl > 0 then e.ttl else r.ttl, wildcard := e.wildcard }

section Records

variable (lower : Nat → Nat) (e : LocalRecordEntry)

/-- The record of an entry at start-up; `none` where the loop goes on. -/
def startRecord : Option LocalRecord :=
  let record : Option LocalRecord :=
    match recordTypeOf e.type with
    | some .a =>
      if e.ips = [] then none
      else
        match v4Addresses e.ips with
        | [] => none
        | ip :: more => some (withAddresses (newARecord lower e.domain) ip more)
    | some .aaaa =>
      if e.ips = [] then none
      else
        match v6Addresses e.ips with
        | [] => none
        | ip :: more => some (withAddresses (newAAAARecord lower e.domain) ip more)
    | some .cname => if e.target = [] then none else some (newCNAMERecord lower e.domain e.target)
    | some .txt =>
      if e.txtRecords = [] then none
      else some { newLocalRecord lower e.domain .txt with txtRecords := e.txtRecords }
    | some .mx =>
      if e.target = [] then none
      else some (newMXRecord lower e.domain e.target (e.priority.getD 10))
    | some .ptr => if e.target = [] then none else some (newPTRRecord lower e.domain e.target)
    | some .srv =>
      if e.target = [] then none
      else
        match e.port with
        | none => none
        | some port =>
          if port = 0 then none
          else
            some (newSRVRecord lower e.domain e.target (e.priority.getD 0) (e.weight.getD 0)
              port)
    | some .ns => if e.target = [] then none else some (newNSRecord lower e.domain e.target)
    | some .soa =>
      if e.ns = [] ∨ e.mbox = [] then none
      else
        some (newSOARecord lower e.domain e.ns e.mbox (e.serial.getD 1) (e.refresh.getD 3600)
          (e.retry.getD 600) (e.expire.getD 86400) (e.minttl.getD 300))
    | some .caa =>
      if e.caaTag = [] ∨ e.caaValue = [] then none
      else some (newCAARecord lower e.domain e.caaTag e.caaValue (e.caaFlag.getD 0))
    | none => none
  record.map (applyEntry e)

/-- The record of an entry in the callback; `none` is the nil pointer. -/
def changeRecord : Option LocalRecord :=
  let record : Option LocalRecord :=
    match recordTypeOf e.type with
    | some .a =>
      if e.ips = [] then none
      else
        let ips := v4Addresses e.ips
        if 0 < ips.length then
          let record := newARecord lower e.domain (ips.headD [])
          some (if 1 < ips.length then { record with ips := ips } else record)
        else none
    | some .aaaa =>
      if e.ips = [] then none
      else
        let ips := v6Addresses e.ips
        if 0 < ips.length then
          let record := newAAAARecord lower e.domain (ips.headD [])
          some (if 1 < ips.length then { record with ips := ips } else record)
        else none
    | some .cname => if e.target ≠ [] then some (newCNAMERecord lower e.domain e.target) else none
    | some .txt =>
      if 0 < e.txtRecords.length then
        some { newLocalRecord lower e.domain .txt with txtRecords := e.txtRecords }
      else none
    | some .mx =>
      if e.target ≠ [] then some (newMXRecord lower e.domain e.target (e.priority.getD 10))
      else none
    | some .ptr => if e.target ≠ [] then some (newPTRRecord lower e.domain e.target) else none
    | some .srv =>
      if e.target ≠ [] ∧ e.port.isSome ∧ e.port.getD 0 ≠ 0 then
        some (newSRVRecord lower e.domain e.target (e.priority.getD 0) (e.weight.getD 0)
          (e.port.getD 0))
      else none
    | some .ns => if e.target ≠ [] then some (newNSRecord lower e.domain e.target) else none
    | some .soa =>
      if e.ns ≠ [] ∧ e.mbox ≠ [] then
        some (newSOARecord lower e.domain e.ns e.mbox (e.serial.getD 1) (e.refresh.getD 3600)
          (e.retry.getD 600) (e.expire.getD 86400) (e.minttl.getD 300))
      else none
    | some .caa =>
      if e.caaTag ≠ [] ∧ e.caaValue ≠ [] then
        some (newCAARecord lower e.domain e.caaTag e.caaValue (e.caaFlag.getD 0))
      else none
    | none => none
  record.map (applyEntry e)

/-- The record of an entry in the API; a type it does not know is refused by `AddRecord`. -/
def apiRecord : Option LocalRecord :=
  (recordTypeOf e.type).map fun type =>
    { domain := e.domain
      type := type
      target := e.target
      ips := e.ips.filterMap parseIP
      txtRecords := e.txtRecords
      ttl := e.ttl
      wildcard := e.wildcard
      priority := e.priority.getD 0
      weight := e.weight.getD 0
      port := e.port.getD 0 }

end Records

/-! ## Managers -/

def Manager.tryAdd (lower : Nat → Nat) (m : Manager) : Option LocalRecord → Manager
  | none => m
  | some r =>
    match m.addRecord lower r with
    | .ok added => added
    | .error _ => m

def addEntries (lower : Nat → Nat) (record : LocalRecordEntry → Option LocalRecord)
    (entries : List LocalRecordEntry) : Manager :=
  entries.foldl (fun m e => m.tryAdd lower (record e)) {}

def buildManager (lower : Nat → Nat) (record : LocalRecordEntry → Option LocalRecord)
    (cfg : LocalRecordsConfig) : Option Manager :=
  if cfg.enabled ∧ 0 < cfg.records.length then some (addEntries lower record cfg.records) else none

def startLocalRecords (lower : Nat → Nat) : LocalRecordsConfig → Option Manager :=
  buildManager lower (startRecord lower)

/-- The local records that the callback for a changed file sets. -/
def changeLocalRecords (lower : Nat → Nat) : LocalRecordsConfig → Option Manager :=
  buildManager lower (changeRecord lower)

def reloadLocalRecords (lower : Nat → Nat) : LocalRecordsConfig → Option Manager :=
  buildManager lower apiRecord

/-- What the callback looks at to see if the records have changed. -/
def equalEntry (a b : LocalRecordEntry) : Bool :=
  a.domain == b.domain && a.type == b.type && a.target == b.target && a.ttl == b.ttl &&
    a.wildcard == b.wildcard && a.ips == b.ips

def equalLocalRecordsConfig (a b : LocalRecordsConfig) : Bool :=
  a.enabled == b.enabled && a.records.length == b.records.length &&
    (a.records.zip b.records).all fun pair => equalEntry pair.1 pair.2

end GloryHole.LocalRecords
