import TrwMcp.Lib.Dict
import TrwMcp.Lib.Run

/-!
# Moving a checkout's store

A checkout keeps its rows in its project store, or, once it is pinned, in a namespace of the user
store. `apply` and `rollback` are sequences of steps that a stop can cut between any two; an older
server goes on writing into the project store, except while a command holds it exclusively.
-/

namespace TrwMcp.Migration

open Lib

/-- The rows of a store, by their identifiers. -/
abbrev Rows (R : Type) := Dict String R

/-- `memory_import_checkout`: merged by identifier, and the destination wins. -/
def mergeRows {R : Type} (held moved : Rows R) : Rows R :=
  held ++ moved.filter fun row => !Dict.has held row.1

/-- How far a command has come. -/
inductive Phase (R : Type) where
  | idle
  | copied (namespace_ : String) (rows : Rows R)
  | imported (namespace_ : String) (rows : Rows R)
  | cutOver (namespace_ : String)
  | pinned
  | rollingBack (namespace_ : String)
  | staged (namespace_ : String) (rows : Rows R)
  | swapped

/-- Whether the command holds the project store exclusively. -/
def Phase.exclusive {R : Type} : Phase R → Bool
  | .copied _ _ | .imported _ _ | .cutOver _ | .pinned => true
  | _ => false

/-- Whether the daemon is kept from running. -/
def Phase.daemonStopped {R : Type} : Phase R → Bool
  | .rollingBack _ | .staged _ _ | .swapped => true
  | _ => false

/-- The stores, the pin, the namespaces of the manifests that record a cutover, and the command that
runs; the identifiers that were ever written are stored by nothing. -/
structure World (R : Type) where
  project : Rows R := []
  user : String → Rows R
  pin : Option String := none
  cutovers : List String := []
  phase : Phase R := .idle
  written : List String := []

inductive Deed (R : Type) where
  /-- a server writes a row into the project store -/
  | write (id : String) (row : R)
  /-- a client of a pinned checkout writes a row through the daemon -/
  | writePinned (id : String) (row : R)
  /-- `_preflight`, the backup and the working copy; `identity` is `_namespace` -/
  | applyBegin (identity : String)
  /-- the import of the rows the daemon takes -/
  | applyImport (takes : String → Bool)
  /-- the counts are verified, and the manifest records the cutover -/
  | applyCutover
  | applyPin
  | applyEmpty
  | rollbackBegin
  /-- `_copy_namespace` -/
  | rollbackCopy
  /-- `_swap` -/
  | rollbackSwap
  | rollbackUnpin
  | stop

variable {R : Type}

/-- One step; what is refused changes nothing. -/
def World.exec (w : World R) : Deed R → World R
  | .write id row =>
      if w.phase.exclusive then w
      else { w with project := Dict.set w.project id row, written := w.written ++ [id] }
  | .writePinned id row =>
      match w.pin with
      | some pin =>
          if w.phase.daemonStopped then w
          else
            { w with
                user := Function.update w.user pin (Dict.set (w.user pin) id row)
                written := w.written ++ [id] }
      | none => w
  | .applyBegin identity =>
      match w.phase with
      | .idle =>
          if w.pin.isSome && w.project.isEmpty then w
          else { w with phase := .copied (w.pin.getD identity) w.project }
      | _ => w
  | .applyImport takes =>
      match w.phase with
      | .copied ns rows =>
          { w with
              user := Function.update w.user ns
                (mergeRows (w.user ns) (rows.filter fun row => takes row.1))
              phase := .imported ns rows }
      | _ => w
  | .applyCutover =>
      match w.phase with
      | .imported ns rows =>
          if rows.all fun row => Dict.has (w.user ns) row.1 then
            { w with cutovers := w.cutovers ++ [ns], phase := .cutOver ns }
          else { w with phase := .idle }
      | _ => w
  | .applyPin =>
      match w.phase with
      | .cutOver ns => { w with pin := some (w.pin.getD ns), phase := .pinned }
      | _ => w
  | .applyEmpty =>
      match w.phase with
      | .pinned => { w with project := [], phase := .idle }
      | _ => w
  | .rollbackBegin =>
      match w.phase, w.pin with
      | .idle, some pin => if pin ∈ w.cutovers then { w with phase := .rollingBack pin } else w
      | _, _ => w
  | .rollbackCopy =>
      match w.phase with
      | .rollingBack ns => { w with phase := .staged ns (w.user ns) }
      | _ => w
  | .rollbackSwap =>
      match w.phase with
      | .staged _ rows => { w with project := rows, phase := .swapped }
      | _ => w
  | .rollbackUnpin =>
      match w.phase with
      | .swapped => { w with pin := none, phase := .idle }
      | _ => w
  | .stop => { w with phase := .idle }

/-- `apply_migration`, with nothing between its steps. -/
def applyDeeds (identity : String) : List (Deed R) :=
  [.applyBegin identity, .applyImport fun _ => true, .applyCutover, .applyPin, .applyEmpty]

/-- `rollback_migration`, with nothing between its steps. -/
def rollbackDeeds : List (Deed R) := [.rollbackBegin, .rollbackCopy, .rollbackSwap, .rollbackUnpin]

def World.execAll (w : World R) (deeds : List (Deed R)) : World R := deeds.foldl World.exec w

end TrwMcp.Migration
