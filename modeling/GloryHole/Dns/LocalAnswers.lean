import GloryHole.Dns.Msg
import GloryHole.LocalRecords.Manager

/-!
# Answers from the local records

`serveFromLocalRecords` appends the records of the name and type asked for to the reply.  The
owner of every record is the name as it was asked for.  The data of a record is kept packed;
packing is the DNS library's, so it is an argument.
-/

namespace GloryHole.Dns

open Go
open LocalRecords (LocalRecord Manager)

def typeNS : UInt16 := 2
def typeCNAME : UInt16 := 5
def typeSOA : UInt16 := 6
def typePTR : UInt16 := 12
def typeMX : UInt16 := 15
def typeTXT : UInt16 := 16
def typeSRV : UInt16 := 33
def typeCAA : UInt16 := 257

inductive RData where
  | cname (target : GoString)
  | txt (texts : List GoString)
  | mx (preference : UInt16) (mx : GoString)
  | ptr (ptr : GoString)
  | srv (priority weight port : UInt16) (target : GoString)
  | ns (ns : GoString)
  | soa (ns mbox : GoString) (serial refresh retry expire minttl : UInt32)
  | caa (flag : UInt8) (tag value : GoString)
  deriving DecidableEq

def Msg.append (msg : Msg) (records : List RR) : Msg :=
  { msg with answer := msg.answer ++ records }

/-! ## Addresses -/

def aRecords (domain : GoString) (ttl : UInt32) (ips : List IP) : List RR :=
  ips.filterMap fun ip => (to4 ip).map fun v4 => ⟨domain, typeA, 1, ttl, v4⟩

def aaaaRecords (domain : GoString) (ttl : UInt32) (ips : List IP) : List RR :=
  ips.filterMap fun ip =>
    if (to4 ip).isSome then none else some ⟨domain, typeAAAA, 1, ttl, (to16 ip).getD []⟩

/-- What the four functions below share; they succeed if the reply has an answer then. -/
def appendAddresses (records : UInt32 → List IP → List RR) (found : Option (List IP × UInt32))
    (msg : Msg) : Msg × Bool :=
  match found with
  | none => (msg, false)
  | some (ips, ttl) =>
    let msg := msg.append (records ttl ips)
    (msg, msg.answer ≠ [])

/-- A second attempt, on the reply the first one left, if that had no answer. -/
def unlessServed (first : Msg × Bool) (second : Msg → Msg × Bool) : Msg × Bool :=
  if first.2 then first else second first.1

section

variable (lower : Nat → Nat) (pack : RData → List UInt8) (m : Manager)

def appendLocalARecords (msg : Msg) (domain : GoString) : Msg × Bool :=
  appendAddresses (aRecords domain) (m.lookupA lower domain) msg

def resolveLocalCNAMEAsA (msg : Msg) (domain : GoString) : Msg × Bool :=
  appendAddresses (aRecords domain) (m.resolveCNAME lower domain 10) msg

def appendLocalAAAARecords (msg : Msg) (domain : GoString) : Msg × Bool :=
  appendAddresses (aaaaRecords domain) (m.lookupAAAA lower domain) msg

def resolveLocalCNAMEAsAAAA (msg : Msg) (domain : GoString) : Msg × Bool :=
  appendAddresses (aaaaRecords domain) (m.resolveCNAME lower domain 10) msg

/-! ## The other types -/

def appendData (qtype : UInt16) (data : LocalRecord → RData) (found : List LocalRecord)
    (msg : Msg) (domain : GoString) : Msg × Bool :=
  if found = [] then (msg, false)
  else (msg.append (found.map fun r => ⟨domain, qtype, 1, r.ttl, pack (data r)⟩), true)

def serveFromLocalRecords (msg : Msg) (domain : GoString) (qtype : UInt16) : Msg × Bool :=
  if qtype = typeA then
    unlessServed (appendLocalARecords lower m msg domain) fun msg =>
      resolveLocalCNAMEAsA lower m msg domain
  else if qtype = typeAAAA then
    unlessServed (appendLocalAAAARecords lower m msg domain) fun msg =>
      resolveLocalCNAMEAsAAAA lower m msg domain
  else if qtype = typeCNAME then
    match m.lookupCNAME lower domain with
    | some (target, ttl) =>
      (msg.append [⟨domain, typeCNAME, 1, ttl, pack (.cname target)⟩], true)
    | none => (msg, false)
  else if qtype = typeTXT then
    appendData pack typeTXT (fun r => .txt r.txtRecords) (m.lookupTXT lower domain) msg domain
  else if qtype = typeMX then
    appendData pack typeMX (fun r => .mx r.priority r.target) (m.lookupMX lower domain) msg domain
  else if qtype = typePTR then
    appendData pack typePTR (fun r => .ptr r.target) (m.lookupPTR lower domain) msg domain
  else if qtype = typeSRV then
    appendData pack typeSRV (fun r => .srv r.priority r.weight r.port r.target)
      (m.lookupSRV lower domain) msg domain
  else if qtype = typeNS then
    appendData pack typeNS (fun r => .ns r.target) (m.lookupNS lower domain) msg domain
  else if qtype = typeSOA then
    -- only the first of the records found is given
    appendData pack typeSOA
      (fun r => .soa r.ns r.mbox r.serial r.refresh r.retry r.expire r.minttl)
      ((m.lookupSOA lower domain).take 1) msg domain
  else if qtype = typeCAA then
    appendData pack typeCAA (fun r => .caa r.caaFlag r.caaTag r.caaValue)
      (m.lookupCAA lower domain) msg domain
  else (msg, false)

end

/-! ## The reply only grows -/

def Appends (serve : Msg → Msg × Bool) : Prop :=
  ∃ records : List RR, ∀ msg : Msg, msg.answer = [] →
    serve msg = (msg.append records, !records.isEmpty)

theorem Msg.append_nil (msg : Msg) : msg.append [] = msg := by
  simp [append]

theorem appends_none : Appends fun msg => (msg, false) :=
  ⟨[], fun msg _ => by rw [msg.append_nil]; rfl⟩

theorem appendAddresses_appends (records : UInt32 → List IP → List RR)
    (found : Option (List IP × UInt32)) : Appends (appendAddresses records found) := by
  cases found with
  | none => exact appends_none
  | some found =>
    refine ⟨records found.2 found.1, ?_⟩
    intro msg hmsg
    simp only [appendAddresses, Msg.append, hmsg, List.nil_append, Prod.mk.injEq, true_and]
    cases records found.2 found.1 <;> rfl

theorem appendData_appends (pack : RData → List UInt8) (qtype : UInt16)
    (data : LocalRecord → RData) (found : List LocalRecord) (domain : GoString) :
    Appends fun msg => appendData pack qtype data found msg domain := by
  cases found with
  | nil => exact appends_none
  | cons r found => exact ⟨_, fun _ _ => rfl⟩

theorem Appends.unlessServed {first second : Msg → Msg × Bool} (h : Appends first)
    (hsecond : Appends second) : Appends fun msg => unlessServed (first msg) second := by
  obtain ⟨records, hfirst⟩ := h
  obtain ⟨records', hsecond⟩ := hsecond
  cases records with
  | nil =>
    refine ⟨records', ?_⟩
    intro msg hmsg
    simp only [hfirst msg hmsg, msg.append_nil, ← hsecond msg hmsg]
    rfl
  | cons r records =>
    refine ⟨r :: records, ?_⟩
    intro msg hmsg
    simp only [hfirst msg hmsg]
    rfl

theorem Appends.ite {p : Prop} [Decidable p] {first second : Msg → Msg × Bool}
    (h : Appends first) (hsecond : Appends second) :
    Appends fun msg => if p then first msg else second msg := by
  by_cases hp : p
  · simp only [if_pos hp]
    exact h
  · simp only [if_neg hp]
    exact hsecond

theorem serveFromLocalRecords_appends (lower : Nat → Nat) (pack : RData → List UInt8)
    (m : Manager) (domain : GoString) (qtype : UInt16) :
    Appends fun msg => serveFromLocalRecords lower pack m msg domain qtype := by
  unfold serveFromLocalRecords
  have hdata := @appendData_appends pack
  refine .ite ?_ (.ite ?_ (.ite ?_ (.ite (hdata ..) (.ite (hdata ..) (.ite (hdata ..)
    (.ite (hdata ..) (.ite (hdata ..) (.ite (hdata ..) (.ite (hdata ..) appends_none)))))))))
  · exact (appendAddresses_appends _ _).unlessServed (appendAddresses_appends _ _)
  · exact (appendAddresses_appends _ _).unlessServed (appendAddresses_appends _ _)
  · cases m.lookupCNAME lower domain with
    | none => exact appends_none
    | some found => exact ⟨_, fun _ _ => rfl⟩

end GloryHole.Dns
