import Mathlib.Logic.Function.Basic
import GloryHole.Api.ConfigUpdate

/-!
# Configuration requests side by side

The endpoints that change the configuration, in the steps between which another one can run: an
endpoint makes the configuration to save from the watcher's, opens the temporary file, writes it,
renames it over the configuration file, loads the file and stores the result.  All use the same
temporary file; whoever has it open keeps writing to it after the rename.
-/

namespace GloryHole.Api

open Go
open Config (Config Env Yaml load save)

/-! ## Files -/

/-- What a file can hold: nothing, and what a write from its start leaves over what it holds.
For bytes this is the text written and the rest of a longer one. -/
structure Medium (δ : Type) where
  empty : δ
  overwrite : δ → δ → δ
  overwrite_empty : ∀ data, overwrite data empty = data

/-- The directory of the configuration file.  A file keeps its number when it is renamed. -/
structure Disk (δ : Type) where
  contents : Nat → δ
  path : Nat
  temp : Option Nat
  fresh : Nat
  path_lt : path < fresh
  temp_lt : ∀ i, temp = some i → i < fresh
  temp_ne : ∀ i, temp = some i → i ≠ path

namespace Disk

variable {δ : Type}

def file (d : Disk δ) : δ := d.contents d.path

def write (d : Disk δ) (fd : Nat) (data : δ) : Disk δ :=
  { d with contents := Function.update d.contents fd data }

def ofFile (data : δ) : Disk δ where
  contents _ := data
  path := 0
  temp := none
  fresh := 1
  path_lt := Nat.one_pos
  temp_lt _ h := by cases h
  temp_ne _ h := by cases h

def create (d : Disk δ) : Disk δ where
  contents := d.contents
  path := d.path
  temp := some d.fresh
  fresh := d.fresh + 1
  path_lt := Nat.lt_succ_of_lt d.path_lt
  temp_lt i h := by
    cases h
    exact Nat.lt_succ_self _
  temp_ne i h := by
    cases h
    exact Nat.ne_of_gt d.path_lt

def openTemp (medium : Medium δ) (d : Disk δ) : Disk δ × Nat :=
  match d.temp with
  | some fd => (d.write fd medium.empty, fd)
  | none => (d.create.write d.fresh medium.empty, d.fresh)

def removeTemp (d : Disk δ) : Disk δ where
  contents := d.contents
  path := d.path
  temp := none
  fresh := d.fresh
  path_lt := d.path_lt
  temp_lt _ h := by cases h
  temp_ne _ h := by cases h

def renameTemp (d : Disk δ) : Option (Disk δ) :=
  match h : d.temp with
  | none => none
  | some fd =>
    some
      { contents := d.contents
        path := fd
        temp := none
        fresh := d.fresh
        path_lt := d.temp_lt fd h
        temp_lt := fun _ h => by cases h
        temp_ne := fun _ h => by cases h }

end Disk

/-! ## Steps -/

/-- What the endpoints run on; `noEntry` is the text of a rename that finds no file. -/
structure Setting (δ : Type) where
  lib : Stdlib
  hash : GoString → Option GoString
  yaml : Yaml δ
  env : Env
  medium : Medium δ
  noEntry : GoString

inductive EditPhase (δ : Type) where
  | idle
  | edited (r : UpdateRequest) (updated : Config)
  | opened (r : UpdateRequest) (updated : Config) (data : δ) (fd : Nat)
  | written (r : UpdateRequest) (updated : Config)
  | failed (r : UpdateRequest)
  | renamed (r : UpdateRequest) (updated : Config)
  | loaded (r : UpdateRequest) (updated : Config) (cfg : Option Config)
  | answered (r : UpdateRequest) (answer : Except UpdateError Config)

structure EditWorld (δ : Type) where
  config : Config
  disk : Disk δ
  edits : Nat → EditPhase δ

inductive EditStep where
  | read (t : Nat) (r : UpdateRequest)
  | openTemp (t : Nat)
  | write (t : Nat)
  | rename (t : Nat)
  | removeTemp (t : Nat)
  | load (t : Nat)
  | swap (t : Nat)

namespace EditWorld

variable {δ : Type}

def set (w : EditWorld δ) (t : Nat) (phase : EditPhase δ) : EditWorld δ :=
  { w with edits := Function.update w.edits t phase }

def state (w : EditWorld δ) : ConfigState δ := ⟨w.config, w.disk.file⟩

def step (σ : Setting δ) (w : EditWorld δ) : EditStep → EditWorld δ
  | .read t r =>
    match w.edits t with
    | .idle =>
      match r.updated σ.lib σ.hash σ.yaml w.config with
      | .error e => w.set t (.answered r (.error e))
      | .ok updated => w.set t (.edited r updated)
    | _ => w
  | .openTemp t =>
    match w.edits t with
    | .edited r updated =>
      match save σ.yaml updated with
      | .error e => w.set t (.answered r (.error (r.saveError e)))
      | .ok data =>
        { w.set t (.opened r updated data (w.disk.openTemp σ.medium).2) with
          disk := (w.disk.openTemp σ.medium).1 }
    | _ => w
  | .write t =>
    match w.edits t with
    | .opened r updated data fd =>
      { w.set t (.written r updated) with
        disk := w.disk.write fd (σ.medium.overwrite data (w.disk.contents fd)) }
    | _ => w
  | .rename t =>
    match w.edits t with
    | .written r updated =>
      match w.disk.renameTemp with
      | some disk => { w.set t (.renamed r updated) with disk := disk }
      | none => w.set t (.failed r)
    | _ => w
  | .removeTemp t =>
    match w.edits t with
    | .failed r =>
      { w.set t (.answered r
          (.error (r.saveError (lit "failed to rename config: " ++ σ.noEntry)))) with
        disk := w.disk.removeTemp }
    | _ => w
  | .load t =>
    match w.edits t with
    | .renamed r updated =>
      w.set t (.loaded r updated (load σ.hash σ.yaml σ.env w.disk.file).toOption)
    | _ => w
  | .swap t =>
    match w.edits t with
    | .loaded r updated cfg =>
      { w.set t (.answered r (.ok updated)) with config := cfg.getD w.config }
    | _ => w

end EditWorld

def editSteps (t : Nat) (r : UpdateRequest) : List EditStep :=
  [.read t r, .openTemp t, .write t, .rename t, .load t, .swap t]

end GloryHole.Api
