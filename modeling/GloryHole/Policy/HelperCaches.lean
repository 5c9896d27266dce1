import GloryHole.Policy.Expr
import GloryHole.Support.Memo
import GloryHole.Support.Threads

/-!
# The caches of the policy functions

`DomainRegex` and `IPInCIDR` keep what they have compiled in two tables that all queries share.
Calls interleave between any two operations on the tables.  A call returns what it would return
without them.
-/

namespace GloryHole.Policy

open Go
open Support.Memo Support.Runs Support.Threads

inductive HelperRequest where
  | domainRegex (domain pattern : GoString)
  | ipInCIDR (ip cidr : GoString)
  deriving DecidableEq

structure HelperCaches where
  regexCache : Table GoString (GoString → Bool) := {}
  cidrCache : Table GoString IPNet := {}

inductive HelperCall where
  | domainRegex (domain pattern : GoString) (phase : Phase (GoString → Bool))
  | ipInCIDR (ip cidr : GoString) (phase : Phase IPNet)

def maxRegexCacheSize : Int := 1024

def maxCIDRCacheSize : Int := 256

namespace HelperCall

/-- `IPInCIDR` parses the address before it looks at its cache. -/
def start : HelperRequest → HelperCall
  | .domainRegex domain pattern => .domainRegex domain pattern .load
  | .ipInCIDR ip cidr => .ipInCIDR ip cidr (if parseIP ip = none then .done none else .load)

def request : HelperCall → HelperRequest
  | .domainRegex domain pattern _ => .domainRegex domain pattern
  | .ipInCIDR ip cidr _ => .ipInCIDR ip cidr

def rank : HelperCall → Nat
  | .domainRegex _ _ phase => phase.rank
  | .ipInCIDR _ _ phase => phase.rank

section

variable (lower : Nat → Nat) (regexp : GoString → Option (GoString → Bool))

/-- `DomainRegex` uses the expression that is stored, `IPInCIDR` the network it has parsed. -/
def next (caches : HelperCaches) (call : HelperCall) (_ : Unit) : HelperCaches × HelperCall :=
  match call with
  | .domainRegex domain pattern phase =>
    let (regexCache, phase) :=
      caches.regexCache.step regexp maxRegexCacheSize true pattern phase
    ({ caches with regexCache := regexCache }, .domainRegex domain pattern phase)
  | .ipInCIDR ip cidr phase =>
    let (cidrCache, phase) := caches.cidrCache.step parseCIDR maxCIDRCacheSize false cidr phase
    ({ caches with cidrCache := cidrCache }, .ipInCIDR ip cidr phase)

/-- What a call that has returned gave back; an inner `none` is an error. -/
def result : HelperCall → Option (Option Bool)
  | .domainRegex domain _ (.done re) => some (re.map fun re => re (toLower lower domain))
  | .ipInCIDR ip _ (.done ipNet) =>
    match parseIP ip, ipNet with
    | some ip, some ipNet => some (some (ipNet.contains ip))
    | _, _ => some (some false)
  | _ => none

end

end HelperCall

def HelperRequest.fresh (lower : Nat → Nat) (regexp : GoString → Option (GoString → Bool)) :
    HelperRequest → Option Bool
  | .domainRegex domain pattern => Policy.domainRegex lower regexp domain pattern
  | .ipInCIDR ip cidr => some (Policy.ipInCIDR ip cidr)

section

variable {lower : Nat → Nat} {regexp : GoString → Option (GoString → Bool)}

abbrev HelperPool := Pool HelperCaches HelperCall

def HelperPool.step (regexp : GoString → Option (GoString → Bool)) (p : HelperPool)
    (turn : Turn HelperRequest Unit) : HelperPool :=
  Pool.step HelperCall.start (HelperCall.next regexp) p turn

def HelperCaches.Sound (regexp : GoString → Option (GoString → Bool)) (caches : HelperCaches) :
    Prop :=
  caches.regexCache.Sound regexp ∧ caches.cidrCache.Sound parseCIDR

def HelperCall.Sound (regexp : GoString → Option (GoString → Bool)) : HelperCall → Prop
  | .domainRegex _ pattern phase => phase.Sound regexp pattern
  | .ipInCIDR ip cidr phase =>
    phase.Sound parseCIDR cidr ∨ parseIP ip = none ∧ phase = .done none

theorem HelperCall.start_sound (request : HelperRequest) : (start request).Sound regexp := by
  cases request with
  | domainRegex domain pattern => exact trivial
  | ipInCIDR ip cidr =>
    by_cases hip : parseIP ip = none
    · exact Or.inr ⟨hip, if_pos hip⟩
    · refine Or.inl ?_
      rw [if_neg hip]
      exact trivial

theorem HelperCall.next_sound {caches : HelperCaches} {call : HelperCall}
    (hcaches : caches.Sound regexp) (hcall : call.Sound regexp) :
    (next regexp caches call ()).1.Sound regexp ∧ (next regexp caches call ()).2.Sound regexp := by
  cases call with
  | domainRegex domain pattern phase =>
    obtain ⟨hcache, hphase⟩ := step_sound maxRegexCacheSize true hcaches.1 hcall
    exact ⟨⟨hcache, hcaches.2⟩, hphase⟩
  | ipInCIDR ip cidr phase =>
    rcases hcall with hphase | ⟨hip, rfl⟩
    · obtain ⟨hcache, hphase⟩ := step_sound maxCIDRCacheSize false hcaches.2 hphase
      exact ⟨⟨hcaches.1, hcache⟩, Or.inl hphase⟩
    · exact ⟨hcaches, Or.inr ⟨hip, rfl⟩⟩

theorem HelperCall.rank_next (caches : HelperCaches) (call : HelperCall) (u : Unit) :
    (next regexp caches call u).2.rank ≤ call.rank - 1 := by
  cases call with
  | domainRegex domain pattern phase => exact rank_step maxRegexCacheSize true phase
  | ipInCIDR ip cidr phase => exact rank_step maxCIDRCacheSize false phase

theorem HelperCall.rank_le (call : HelperCall) : call.rank ≤ 5 := by
  cases call with
  | domainRegex _ _ phase | ipInCIDR _ _ phase => cases phase <;> simp [rank, Phase.rank]

theorem HelperCall.request_next (caches : HelperCaches) (call : HelperCall) (u : Unit) :
    (next regexp caches call u).2.request = call.request := by
  cases call <;> rfl

/-- A sound call that has got to its end has the answer of a fresh one. -/
theorem HelperCall.result_eq {call : HelperCall} (hcall : call.Sound regexp) :
    call.result lower = if call.rank = 0 then some (call.request.fresh lower regexp) else none := by
  cases call with
  | domainRegex domain pattern phase =>
    cases phase with
    | done re =>
      have hre : regexp pattern = re := hcall
      rw [← hre]
      rfl
    | _ => rfl
  | ipInCIDR ip cidr phase =>
    cases phase with
    | done ipNet =>
      rcases hcall with hnet | ⟨hip, hdone⟩
      · have hnet : parseCIDR cidr = ipNet := hnet
        subst hnet
        simp only [result, rank, Phase.rank, request, HelperRequest.fresh, Policy.ipInCIDR, if_true]
        cases parseIP ip <;> cases parseCIDR cidr <;> rfl
      · cases hdone
        simp only [result, rank, Phase.rank, request, HelperRequest.fresh, Policy.ipInCIDR, if_true,
          hip]
    | _ => rfl

def HelperPool.Sound (regexp : GoString → Option (GoString → Bool)) (p : HelperPool) : Prop :=
  p.memory.Sound regexp ∧
    ∀ (i : Nat) (call : HelperCall), p.threads[i]? = some call → call.Sound regexp

theorem HelperPool.sound_step {p : HelperPool} (turn : Turn HelperRequest Unit)
    (h : p.Sound regexp) : (p.step regexp turn).Sound regexp := by
  cases turn with
  | spawn request => exact ⟨h.1, Pool.forall_spawn request (HelperCall.start_sound request) h.2⟩
  | run i u =>
    cases hi : p.threads[i]? with
    | none =>
      rw [HelperPool.step, Pool.step_run_none hi]
      exact h
    | some call =>
      obtain ⟨hcaches, hcall⟩ := HelperCall.next_sound h.1 (h.2 i call hi)
      refine ⟨?_, Pool.forall_run hi hcall fun j other _ => h.2 j other⟩
      rw [HelperPool.step, Pool.step_run hi]
      exact hcaches

theorem HelperPool.sound_exec {p : HelperPool} (h : p.Sound regexp)
    (turns : List (Turn HelperRequest Unit)) :
    (exec (HelperPool.step regexp) p turns).Sound regexp := by
  induction turns generalizing p with
  | nil => exact h
  | cons turn turns ih => exact ih (HelperPool.sound_step turn h)

end

/-- In every interleaving the tables hold only what compiles to what is stored, and a call returns
what it would return without them, after five operations of its own at most. -/
theorem helper_caches_transparent (lower : Nat → Nat)
    (regexp : GoString → Option (GoString → Bool)) (turns : List (Turn HelperRequest Unit)) :
    let p := exec (HelperPool.step regexp) ⟨{}, []⟩ turns
    p.memory.Sound regexp ∧ ∀ i call, p.threads[i]? = some call →
      (∀ r, call.result lower = some r → r = call.request.fresh lower regexp) ∧
      ∀ later : List (Turn HelperRequest Unit), 5 ≤ later.countP (Turn.isOf i) →
        ∃ call', (exec (HelperPool.step regexp) p later).threads[i]? = some call' ∧
          call'.request = call.request ∧
          call'.result lower = some (call.request.fresh lower regexp) := by
  intro p
  have hsound : p.Sound regexp := by
    apply HelperPool.sound_exec
    refine ⟨⟨?_, ?_⟩, ?_⟩
    · exact fun e he => absurd he List.not_mem_nil
    · exact fun e he => absurd he List.not_mem_nil
    · intro i call hi
      cases hi
  refine ⟨hsound.1, fun i call hi => ⟨?_, ?_⟩⟩
  · intro r hr
    rw [HelperCall.result_eq (hsound.2 i call hi)] at hr
    split at hr
    · exact (Option.some.inj hr).symm
    · cases hr
  · intro later hlater
    have hfinish : ∃ call', (exec (HelperPool.step regexp) p later).threads[i]? = some call' ∧
        call'.request = call.request ∧ call'.rank = 0 :=
      Pool.exec_finishes HelperCall.rank_next
        (fun m c u h => (HelperCall.request_next m c u).trans h) hi rfl
        (Nat.le_trans call.rank_le hlater)
    obtain ⟨call', hi', hrequest, hrank⟩ := hfinish
    refine ⟨call', hi', hrequest, ?_⟩
    rw [HelperCall.result_eq ((HelperPool.sound_exec hsound later).2 i call' hi'), if_pos hrank,
      hrequest]

end GloryHole.Policy
