import GloryHole.Support.Runs

/-!
# The notice that a temporary disable is over

A monitor looks once a second at the blocklist and the policies: it samples under the lock which
are disabled, then calls the re-enable callback for each that is not, that has been, and that it
has not reported since.  Every part of a tick that holds the lock is a step, as are the calls that
disable or enable a feature.

`owed` records when disables have run out, `calls` when the callback was called; nothing reads
them.
-/

namespace GloryHole.Api

inductive Feature where
  | blocklist
  | policies
  deriving DecidableEq

/-- Where the monitor is: between two ticks, or in one, with the feature it looks at next, what it
has sampled and what was owed by then. -/
inductive MonitorPhase where
  | idle
  | checking (next : Feature) (disabled : Feature → Bool) (owed : List Int)

structure KillSwitch where
  disabledUntil : Feature → Option Int
  logged : Feature → Bool
  phase : MonitorPhase
  clock : Int
  owed : List Int
  calls : List Int

namespace KillSwitch

inductive Step where
  | disableFor (f : Feature) (duration : Int)
  | enable (f : Feature)
  | tick
  | check

def ranOut (k : KillSwitch) (f : Feature) : List Int :=
  (k.disabledUntil f).toList.filter (· ≤ k.clock)

def setUntil (k : KillSwitch) (f : Feature) (time : Option Int) : KillSwitch :=
  { k with
    disabledUntil := Function.update k.disabledUntil f time
    owed := k.owed ++ k.ranOut f }

def sample (k : KillSwitch) (f : Feature) : Bool :=
  (k.disabledUntil f).any fun time => k.clock < time

def report (k : KillSwitch) (f : Feature) (disabled : Feature → Bool) : KillSwitch :=
  if ¬ disabled f ∧ ¬ k.logged f ∧ (k.disabledUntil f).isSome then
    { k with logged := Function.update k.logged f true, calls := k.calls ++ [k.clock] }
  else k

def resetFlags (k : KillSwitch) (disabled : Feature → Bool) : KillSwitch :=
  { k with logged := fun f => if disabled f then false else k.logged f, phase := .idle }

def act (k : KillSwitch) : Step → KillSwitch
  | .disableFor f duration => k.setUntil f (some (k.clock + duration))
  | .enable f => k.setUntil f none
  | .tick =>
    match k.phase with
    | .idle =>
      { k with
        phase := .checking .blocklist k.sample
          (k.owed ++ k.ranOut .blocklist ++ k.ranOut .policies) }
    | .checking _ _ _ => k
  | .check =>
    match k.phase with
    | .idle => k
    | .checking .blocklist disabled owed =>
      { k.report .blocklist disabled with phase := .checking .policies disabled owed }
    | .checking .policies disabled _ => (k.report .policies disabled).resetFlags disabled

def step (k : KillSwitch) (i : Step × Int) : KillSwitch := { k with clock := i.2 }.act i.1

def newKillSwitchManager (now : Int) : KillSwitch :=
  ⟨fun _ => none, fun _ => false, .idle, now, [], []⟩

end KillSwitch

end GloryHole.Api
