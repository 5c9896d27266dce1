import GloryHole.Go.Strings

/-!
# DNS messages

The part of the message type of the DNS library that the program reads and
writes.  Names are in the library's presentation form with the trailing dot.  The
data of a record is opaque here: no modelled function looks into it.
-/

namespace GloryHole.Dns

open Go

structure Question where
  name : GoString
  qtype : UInt16
  qclass : UInt16
  deriving DecidableEq

structure RR where
  name : GoString
  rrtype : UInt16
  rrclass : UInt16
  ttl : UInt32
  rdata : List UInt8
  deriving DecidableEq

structure Msg where
  id : UInt16 := 0
  response : Bool := false
  opcode : Nat := 0
  authoritative : Bool := false
  truncated : Bool := false
  recursionDesired : Bool := false
  recursionAvailable : Bool := false
  authenticatedData : Bool := false
  checkingDisabled : Bool := false
  rcode : Nat := 0
  question : List Question := []
  answer : List RR := []
  ns : List RR := []
  extra : List RR := []
  deriving DecidableEq

def rcodeSuccess : Nat := 0
def rcodeFormatError : Nat := 1
def rcodeServerFailure : Nat := 2
def rcodeNameError : Nat := 3
def rcodeRefused : Nat := 5

def typeA : UInt16 := 1
def typeAAAA : UInt16 := 28
def typeOPT : UInt16 := 41

/-- `Msg.IsEdns0`: the last OPT record of the additional section. -/
def Msg.isEdns0 (m : Msg) : Option RR := m.extra.reverse.find? (·.rrtype == typeOPT)

def RR.doBit (opt : RR) : Bool := opt.ttl.toNat.testBit 15

def RR.udpSize (opt : RR) : UInt16 := opt.rrclass

def setReply (r : Msg) : Msg :=
  { id := r.id
    response := true
    opcode := r.opcode
    recursionDesired := if r.opcode = 0 then r.recursionDesired else false
    checkingDisabled := if r.opcode = 0 then r.checkingDisabled else false
    rcode := rcodeSuccess
    question := r.question.take 1 }

/-- `Msg.SetRcode`: `SetReply` on the message, then the code.  The sections and
the remaining flags of `m` stay. -/
def setRcode (m r : Msg) (rcode : Nat) : Msg :=
  { m with
    id := r.id
    response := true
    opcode := r.opcode
    recursionDesired := if r.opcode = 0 then r.recursionDesired else m.recursionDesired
    checkingDisabled := if r.opcode = 0 then r.checkingDisabled else m.checkingDisabled
    rcode := rcode
    question := if r.question = [] then m.question else r.question.take 1 }

end GloryHole.Dns
