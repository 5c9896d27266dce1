import GloryHole.Config.Load
import GloryHole.Support.Runs

/-!
# The configuration watcher

`Watcher` with the file it watches.  A save of the API writes a temporary file, renames it over the
path and calls `Reload`; other programs write the file in place or replace it.  The loop of `Start`
takes one event or one expiry of the debounce timer at a time.

The watch is on the file, not on its directory: it does not follow the path once that is replaced.
-/

namespace GloryHole.Config

open Go

inductive FsOp where
  | write
  | create
  | other
  deriving DecidableEq

/-- The watcher and its surroundings.  `file` is what the path holds and `temp` the
temporary file beside it; `applied` is the configuration last passed to the callback, at
first the one `main` set everything up with. -/
structure Watcher (δ : Type) where
  cfg : Config
  file : δ
  temp : Option δ
  watched : Bool
  events : List FsOp
  timer : Bool
  hasOnChange : Bool
  /-- The timer's reload has succeeded and the callback is due. -/
  firing : Bool
  applied : Config

inductive WatcherStep (δ : Type) where
  /-- `Save`, first half: the temporary file. -/
  | writeTemp (data : δ)
  /-- `Save`, second half. -/
  | rename
  /-- `Reload`, as the API calls it. -/
  | reload
  /-- Another program writes the file in place, which the kernel reports as `ops`. -/
  | edit (data : δ) (ops : List FsOp)
  /-- Another program renames a file over the path. -/
  | replace (data : δ)
  /-- `OnChange` registers the callback. -/
  | register
  /-- The loop receives an event. -/
  | deliver
  /-- The debounce timer expires. -/
  | expire
  /-- The loop calls the callback. -/
  | callback

section

variable {δ : Type} (hash : GoString → Option GoString) (yaml : Yaml δ) (env : Env)

namespace Watcher

def reloaded (w : Watcher δ) : Option Config := (load hash yaml env w.file).toOption

/-- The path gets a new file.  The watch is lost with the old one, whose end is reported. -/
def replaceFile (w : Watcher δ) (data : δ) : Watcher δ :=
  { w with
    file := data
    watched := false
    events := if w.watched then w.events ++ [FsOp.other, .other] else w.events }

def receive (w : Watcher δ) : Watcher δ :=
  match w.events with
  | [] => w
  | op :: events => { w with events := events, timer := w.timer || op ≠ .other }

def step (w : Watcher δ) : WatcherStep δ → Watcher δ
  | .writeTemp data => { w with temp := some data }
  | .rename =>
    match w.temp with
    | none => w
    | some data => { w.replaceFile data with temp := none }
  | .reload => { w with cfg := (w.reloaded hash yaml env).getD w.cfg }
  | .edit data ops =>
    { w with file := data, events := if w.watched then w.events ++ ops else w.events }
  | .replace data => w.replaceFile data
  | .register => { w with hasOnChange := true }
  | .deliver => if w.firing then w else w.receive
  | .expire =>
    if w.timer ∧ ¬ w.firing then
      match w.reloaded hash yaml env with
      | none => { w with timer := false }
      | some cfg => { w with timer := false, cfg := cfg, firing := w.hasOnChange }
    else w
  | .callback => if w.firing then { w with firing := false, applied := w.cfg } else w

def Quiescent (w : Watcher δ) : Prop := w.events = [] ∧ w.timer = false ∧ w.firing = false

end Watcher

def newWatcher (cfg : Config) (data : δ) : Watcher δ :=
  { cfg := cfg
    file := data
    temp := none
    watched := true
    events := []
    timer := false
    hasOnChange := false
    firing := false
    applied := cfg }

end

end GloryHole.Config
