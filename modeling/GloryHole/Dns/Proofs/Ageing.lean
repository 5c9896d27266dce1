import GloryHole.Dns.Serve

/-!
# TTLs of cached answers

The cache keeps a copy of the response and hands out copies of that; `serveFromCache` changes the
id and the OPT record of such a copy.  Nothing on the way counts down a TTL, so every record
leaves with the TTL it came with.
-/

namespace GloryHole.Dns

open Go Support.Runs
open Cache (Interface second)

/-! ## Histories of the cache -/

structure Stored where
  resp : Msg
  storedAt : Int
  deriving DecidableEq

inductive CacheOp where
  | set (order : List GoString) (r resp : Msg)
  | setBlocked (order : List GoString) (r resp : Msg)
  | get (r : Msg)
  | cleanup
  | clear

def cacheStep (c : Interface Stored) : CacheOp × Int → Interface Stored
  | (.set order r resp, now) => c.set order now r resp ⟨resp, now⟩
  | (.setBlocked order r resp, now) => c.setBlocked order now r resp ⟨resp, now⟩
  | (.get r, now) => (c.getWithTrace r now).1
  | (.cleanup, now) => c.cleanup now
  | (.clear, _) => c.clear

def Verbatim (c : Interface Stored) : Prop := c.Holds fun _ msg stored => msg = stored.resp

theorem cacheStep_verbatim (c : Interface Stored) (op : CacheOp × Int) (h : Verbatim c) :
    Verbatim (cacheStep c op) := by
  obtain ⟨op, now⟩ := op
  cases op with
  | set order r resp => exact h.set order now fun _ => rfl
  | setBlocked order r resp => exact h.setBlocked order now rfl
  | get r => exact (h.getWithTrace r now).1
  | cleanup => exact h.cleanup now
  | clear => exact Interface.clear_holds c

theorem exec_verbatim {cfg : GloryHole.Config.CacheConfig} {c : Interface Stored}
    (hnew : Cache.new cfg = some c) (ops : List (CacheOp × Int)) :
    Verbatim (exec cacheStep c ops) := by
  have hrun : AllSteps cacheStep (fun _ _ => True) c ops :=
    allSteps_of_forall (fun _ _ => trivial) c ops
  have hinit : Verbatim c := Cache.new_holds hnew
  exact invariant_exec (fun c op _ h => cacheStep_verbatim c op h) hrun hinit

/-! ## Ageing -/

/-- The additional section without the OPT record, whose TTL field is none. -/
def Msg.additional (msg : Msg) : List RR := msg.extra.filter (·.rrtype != typeOPT)

/-- Every record that is sent has at most what is left of the TTL of the one in its place. -/
def AgedBy (elapsed : Nat) (original sent : List RR) : Prop :=
  ∀ (i : Nat) (rr : RR), sent[i]? = some rr →
    ∃ orig : RR, original[i]? = some orig ∧ rr.ttl.toNat ≤ orig.ttl.toNat - elapsed

structure Aged (elapsed : Nat) (resp reply : Msg) : Prop where
  answer : AgedBy elapsed resp.answer reply.answer
  ns : AgedBy elapsed resp.ns reply.ns
  additional : AgedBy elapsed resp.additional reply.additional

def elapsedSeconds (s t : Int) : Nat := ((t - s) / second).toNat

theorem agedBy_nil (elapsed : Nat) (original : List RR) : AgedBy elapsed original [] := by
  intro i rr hrr
  cases hrr

/-- Records that are sent as they are have aged only if no second has passed or their TTL is 0. -/
theorem agedBy_self_iff {elapsed : Nat} {l : List RR} :
    AgedBy elapsed l l ↔ ∀ rr ∈ l, elapsed = 0 ∨ rr.ttl = 0 := by
  have hle (rr : RR) :
      rr.ttl.toNat ≤ rr.ttl.toNat - elapsed ↔ elapsed = 0 ∨ rr.ttl = 0 := by
    rw [← UInt32.toNat_inj, UInt32.toNat_zero]
    omega
  constructor
  · intro haged rr hrr
    obtain ⟨i, hi⟩ := List.mem_iff_getElem?.mp hrr
    obtain ⟨orig, horig, hleft⟩ := haged i rr hi
    obtain rfl : rr = orig := Option.some.inj (hi.symm.trans horig)
    exact (hle rr).mp hleft
  · intro hall i rr hi
    exact ⟨rr, hi, (hle rr).mpr (hall rr (List.mem_of_getElem? hi))⟩

/-! ## A hit -/

def hitReply (len : Msg → Nat) (t : Transport) (r stored : Msg) : Msg :=
  writeMsg len t ((Reply.cached stored).msg r)

def Strips (len : Msg → Nat) (t : Transport) (r stored : Msg) : Prop :=
  t.isUDP = true ∧ len ((Reply.cached stored).msg r) > maxSize ((Reply.cached stored).msg r)

instance decidableStrips (len : Msg → Nat) (t : Transport) (r stored : Msg) :
    Decidable (Strips len t r stored) :=
  inferInstanceAs (Decidable (_ ∧ _))

theorem cached_sections (r stored : Msg) :
    ((Reply.cached stored).msg r).answer = stored.answer ∧
      ((Reply.cached stored).msg r).ns = stored.ns ∧
      ((Reply.cached stored).msg r).additional = stored.additional := by
  simp only [Reply.msg, handleEDNS0]
  split
  · refine ⟨rfl, rfl, ?_⟩
    unfold Msg.additional
    rw [List.filter_append]
    exact List.append_nil _
  · exact ⟨rfl, rfl, rfl⟩

theorem hitReply_sections (len : Msg → Nat) (t : Transport) (r stored : Msg) :
    (hitReply len t r stored).answer = (if Strips len t r stored then [] else stored.answer) ∧
      (hitReply len t r stored).ns = stored.ns ∧
      (hitReply len t r stored).additional = stored.additional := by
  obtain ⟨hanswer, hns, hadditional⟩ := cached_sections r stored
  by_cases hstrips : Strips len t r stored
  · have hreply : hitReply len t r stored = truncate ((Reply.cached stored).msg r) :=
      if_pos hstrips
    rw [hreply, if_pos hstrips]
    exact ⟨rfl, hns, hadditional⟩
  · have hreply : hitReply len t r stored = (Reply.cached stored).msg r := if_neg hstrips
    rw [hreply, if_neg hstrips]
    exact ⟨hanswer, hns, hadditional⟩

def sentRecords (len : Msg → Nat) (t : Transport) (r stored : Msg) : List RR :=
  (if Strips len t r stored then [] else stored.answer) ++ stored.ns ++ stored.additional

theorem hitReply_aged_iff {len : Msg → Nat} {t : Transport} {r stored : Msg} {elapsed : Nat} :
    Aged elapsed stored (hitReply len t r stored) ↔
      elapsed = 0 ∨ ∀ rr ∈ sentRecords len t r stored, rr.ttl = 0 := by
  obtain ⟨hanswer, hns, hadditional⟩ := hitReply_sections len t r stored
  have hanswers : AgedBy elapsed stored.answer (hitReply len t r stored).answer ↔
      ∀ rr ∈ (if Strips len t r stored then [] else stored.answer),
        elapsed = 0 ∨ rr.ttl = 0 := by
    rw [hanswer]
    split
    · exact iff_of_true (agedBy_nil _ _) fun _ hrr => absurd hrr List.not_mem_nil
    · exact agedBy_self_iff
  have hall : Aged elapsed stored (hitReply len t r stored) ↔
      ∀ rr ∈ sentRecords len t r stored, elapsed = 0 ∨ rr.ttl = 0 := by
    simp only [sentRecords, List.forall_mem_append]
    rw [← hanswers, ← agedBy_self_iff, ← agedBy_self_iff]
    constructor
    · intro h
      exact ⟨⟨h.answer, hns ▸ h.ns⟩, hadditional ▸ h.additional⟩
    · intro h
      exact ⟨h.1.1, hns.symm ▸ h.1.2, hadditional.symm ▸ h.2⟩
  rw [hall]
  by_cases hzero : elapsed = 0
  · simp [hzero]
  · simp [hzero]

/-- After every history of the cache: a response stored at `s` and served by a hit at `t` has aged
exactly when less than a second has passed or every record that is sent has a TTL of 0. -/
theorem hit_aged_iff {cfg : GloryHole.Config.CacheConfig} {c : Interface Stored}
    (hnew : Cache.new cfg = some c) (ops : List (CacheOp × Int)) {r msg : Msg} {now : Int}
    {stored : Stored}
    (hhit : ((exec cacheStep c ops).getWithTrace r now).2 = some (msg, stored))
    (len : Msg → Nat) (t : Transport) :
    Aged (elapsedSeconds stored.storedAt now) stored.resp (hitReply len t r msg) ↔
      elapsedSeconds stored.storedAt now = 0 ∨
        ∀ rr ∈ sentRecords len t r stored.resp, rr.ttl = 0 := by
  have hverbatim : msg = stored.resp :=
    ((exec_verbatim hnew ops).getWithTrace r now).2 msg stored hhit
  rw [hverbatim]
  exact hitReply_aged_iff

/-! ## An answer that does not age -/

def agedConfig : GloryHole.Config.CacheConfig :=
  { enabled := true, maxEntries := 100, maxTTL := 3600 * second }

def agedQuery : Msg := { question := [⟨lit "example.com.", typeA, 1⟩] }

def agedAnswer : Msg :=
  { response := true, question := [⟨lit "example.com.", typeA, 1⟩]
    answer := [⟨lit "example.com.", typeA, 1, 300, [192, 0, 2, 1]⟩] }

def agedCache : Interface Stored :=
  exec cacheStep (.plain agedConfig ⟨[], 100⟩) [(.set [] agedQuery agedAnswer, 0)]

theorem hit_aged_iff_half_second :
    Aged (elapsedSeconds 0 500000000) agedAnswer
        (hitReply wireLen .udp agedQuery agedAnswer) ↔
      elapsedSeconds 0 500000000 = 0 ∨
        ∀ rr ∈ sentRecords wireLen .udp agedQuery agedAnswer, rr.ttl = 0 :=
  @hit_aged_iff agedConfig (.plain agedConfig ⟨[], 100⟩) rfl [(.set [] agedQuery agedAnswer, 0)]
    agedQuery agedAnswer 500000000 ⟨agedAnswer, 0⟩ (by decide +kernel) wireLen .udp

/-- Two hundred seconds after the fetch the record is still sent with its five minutes. -/
theorem hit_ttl_not_aged :
    (agedCache.getWithTrace agedQuery (200 * second)).2 = some (agedAnswer, ⟨agedAnswer, 0⟩) ∧
      elapsedSeconds 0 (200 * second) = 200 ∧
      (hitReply wireLen .udp agedQuery agedAnswer).answer.map (·.ttl) = [300] ∧
      agedAnswer.answer.map (·.ttl) = [300] := by
  decide +kernel

end GloryHole.Dns
