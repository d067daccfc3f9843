import TrwMcp.Lib.Dict
import TrwMcp.Lib.Run

/-!
# Putting a snapshot back

`_rollback` in single file-system steps, with other writers between any two of them. A file is an
inode under a name; a writer replaces the file at a name, removes it, or writes into an inode. What
the operating system answers to a step is free.

Every surface name is cleared first, and the names of the snapshot are filled after that. A digest
stands for the bytes it was taken of.
-/

namespace TrwMcp.Rollback

open Lib

abbrev Bytes := List UInt8

/-- What an inode is; `special` is neither a regular file nor a link. -/
inductive Node where
  | file (content : Bytes) (mode : Nat)
  | link (target : String)
  | special
deriving DecidableEq

/-- `_sha_regular` -/
@[grind =] def Node.bytes : Node → Option Bytes
  | .file content _ => some content
  | _ => none

/-- The same bytes, or the same link. -/
def Node.Same : Node → Node → Prop
  | .file content _, .file content' _ => content = content'
  | .link target, .link target' => target = target'
  | _, _ => False

instance : DecidableRel Node.Same
  | .file content _, .file content' _ => decEq content content'
  | .link target, .link target' => decEq target target'
  | .file _ _, .link _ => isFalse id
  | .file _ _, .special => isFalse id
  | .link _, .file _ _ => isFalse id
  | .link _, .special => isFalse id
  | .special, .file _ _ => isFalse id
  | .special, .link _ => isFalse id
  | .special, .special => isFalse id

/-- `full` is an answer of a disk that is full. -/
inductive Answer where
  | ok
  | refused
  | full
deriving DecidableEq

inductive Place where
  | trash
  | beside
deriving DecidableEq

/-- The warnings, with the name and the file they are about. -/
inductive Note where
  | leftInPlace (rel : String)
  | permissions (rel : String)
  | changed (rel : String)
  | copyAt (rel : String) (inode : Nat)
  | movedTo (rel : String) (inode : Nat)
  | appeared (rel : String)
  | notPutBack (rel : String)
  | preUpdateAt (rel : String)
  | keptOnlyAt (rel : String)
deriving DecidableEq

/-- What comes next. From `looked` to `verified` the name goes through `remove_proven_or_keep`, from
`refused` to `asideLinked` through `_clear_own_in_place`, and from `putBack` to `save` through
`put_back_or_preserve`. -/
inductive Stage where
  | validate
  | clear
  | looked (rel : String) (mode : Nat)
  | chmod (rel : String) (mode : Nat)
  | capture (rel : String) (current : Bytes)
  | captured (rel : String) (current : Bytes) (inode : Nat)
  | mismatched (rel : String) (current : Bytes) (inode : Nat)
  | matched (rel : String) (current : Bytes) (inode : Nat)
  | verified (rel : String) (current : Bytes) (inode : Nat)
  | refused (rel : String) (current : Bytes)
  | aside (rel : String) (current : Bytes) (inode : Nat)
  | asideVerified (rel : String) (current : Bytes) (inode : Nat)
  | asideChanged (rel : String) (inode : Nat)
  | asideLinked (rel : String) (inode : Nat)
  | restore
  | putBack (rel : String) (again : Bool)
  | filling (rel : String) (inode : Nat) (again : Bool)
  | unlinking (rel : String) (inode : Nat) (again : Bool) (answer : Answer)
  | save (rel : String)
  | done
  | failed
deriving DecidableEq

/-- The files, the snapshot and the ledger of the run's own writes, and how far the rollback is.
`restored`, `others` and `since` are in no file: the names that were put back, the inodes another
writer has written and not taken away itself, and the names another writer has written on since the
rollback left its pre-update file there. -/
structure World where
  nodes : Nat → Node
  next : Nat
  names : String → Option Nat
  kept : List (Place × Nat) := []
  saved : List (Place × String × Node) := []
  snapshot : Dict String Node
  ledger : String → Option Bytes
  syncHash : Option Bytes
  todo : List String
  intact : List String := []
  unsaved : List String := []
  notes : List Note := []
  stage : Stage := .validate
  restored : List String := []
  others : List Nat
  since : String → Bool

inductive Deed where
  /-- the rollback's next step -/
  | act (answer : Answer)
  /-- another writer renames its file to a name, or creates it there -/
  | replace (rel : String) (node : Node)
  | remove (rel : String)
  /-- another writer writes through a descriptor -/
  | write (inode : Nat) (content : Bytes)

/-! ## Clearing a name -/

namespace World

def leave (w : World) (rel : String) : World :=
  { w with stage := .clear, notes := w.notes ++ [.leftInPlace rel] }

def leaveIntact (w : World) (rel : String) (stage : Stage) : World :=
  { w with
      stage
      intact := w.intact ++ [rel]
      since := Function.update w.since rel false }

/-- `remove_proven_or_keep`, up to the kind of the file. -/
def look (w : World) (rel : String) (answer : Answer) : World :=
  match w.names rel with
  | none => { w with stage := .clear }
  | some inode =>
      if answer ≠ .ok then w.leave rel
      else
        match w.nodes inode with
        | .file _ mode => { w with stage := .looked rel mode }
        | .link target =>
            if Dict.lookup w.snapshot rel = some (.link target) then w.leaveIntact rel .clear
            else w.leave rel
        | .special => w.leave rel

@[grind =] def bytesAt (w : World) (rel : String) : Option Bytes :=
  (w.names rel).bind fun i => (w.nodes i).bytes

/-- The hash, and whether it is the snapshot's. -/
@[grind =] def compare (w : World) (rel : String) (mode : Nat) (answer : Answer) : World :=
  match w.bytesAt rel with
  | none => w.leave rel
  | some current =>
      if answer ≠ .ok then w.leave rel
      else
        match Dict.lookup w.snapshot rel with
        | some (.file content want) =>
            if current = content then
              w.leaveIntact rel (if mode = want then .clear else .chmod rel want)
            else { w with stage := .capture rel current }
        | _ => { w with stage := .capture rel current }

@[grind =] def chmod (w : World) (rel : String) (mode : Nat) (answer : Answer) : World :=
  match w.names rel with
  | none => { w with stage := .clear, notes := w.notes ++ [.permissions rel] }
  | some inode =>
      match w.nodes inode, answer with
      | .file content _, .ok =>
          { w with nodes := Function.update w.nodes inode (.file content mode), stage := .clear }
      | _, _ => { w with stage := .clear, notes := w.notes ++ [.permissions rel] }

/-- A capture that came to nothing: the run's own write is cleared in place. -/
def refuse (w : World) (rel : String) (current : Bytes) : World :=
  if w.ledger rel = some current then { w with stage := .refused rel current } else w.leave rel

/-- `_capture` -/
@[grind =] def capture (w : World) (rel : String) (current : Bytes) (answer : Answer) : World :=
  match w.names rel with
  | none => { w with stage := .clear }
  | some inode =>
      if answer = .ok then
        { w with
            names := Function.update w.names rel none
            kept := w.kept ++ [(.trash, inode)]
            stage := .captured rel current inode }
      else w.refuse rel current

/-- `_sha256_stable` -/
@[grind =] def verify (w : World) (rel : String) (current : Bytes) (inode : Nat) (answer : Answer) : World :=
  if answer = .ok ∧ (w.nodes inode).bytes = some current then
    { w with stage := .matched rel current inode }
  else { w with stage := .mismatched rel current inode }

def moved (w : World) (rel : String) (inode : Nat) : World :=
  { w with stage := .clear, notes := w.notes ++ [.movedTo rel inode] }

/-- The end of `_verify_and_publish`; the capture keeps its own link. -/
@[grind =] def linkBack (w : World) (rel : String) (current : Bytes) (inode : Nat) (answer : Answer) : World :=
  if answer = .ok ∧ w.names rel = none then
    { w with names := Function.update w.names rel (some inode) }.refuse rel current
  else w.moved rel inode

/-- Only the run's own write is dropped, after it was hashed again. -/
@[grind =] def recheck (w : World) (rel : String) (current : Bytes) (inode : Nat) (answer : Answer) : World :=
  if w.ledger rel = some current ∧ answer = .ok ∧ (w.nodes inode).bytes = some current then
    { w with stage := .verified rel current inode }
  else w.moved rel inode

/-- The rename of `_clear_own_in_place`. On a full disk the unlink in place is one step. -/
@[grind =] def moveAside (w : World) (rel : String) (current : Bytes) (answer : Answer) : World :=
  match w.names rel with
  | none => { w with stage := .clear }
  | some inode =>
      match answer with
      | .ok =>
          { w with
              names := Function.update w.names rel none
              stage := .aside rel current inode }
      | .full =>
          if (w.nodes inode).bytes = some current then
            { w with names := Function.update w.names rel none, stage := .clear }
          else w.leave rel
      | .refused => w.leave rel

@[grind =] def recheckAside (w : World) (rel : String) (current : Bytes) (inode : Nat) (answer : Answer) :
    World :=
  if answer = .ok ∧ (w.nodes inode).bytes = some current then
    { w with stage := .asideVerified rel current inode }
  else { w with stage := .asideChanged rel inode }

@[grind =] def linkAside (w : World) (rel : String) (inode : Nat) (answer : Answer) : World :=
  if answer = .ok ∧ w.names rel = none then
    { w with
        names := Function.update w.names rel (some inode)
        stage := .asideLinked rel inode }
  else
    { w with
        kept := w.kept ++ [(.beside, inode)]
        stage := .clear
        notes := w.notes ++ [.copyAt rel inode] }

/-! ## Filling a name -/

/-- The name now holds what the snapshot holds. -/
def putBackDone (w : World) (rel : String) : World :=
  { w with stage := .restore, restored := w.restored ++ [rel] }

def toSave (w : World) (rel : String) (note : Note) : World :=
  { w with stage := .save rel, notes := w.notes ++ [note] }

/-- The retry of `put_back_or_preserve`, once, and only on a full disk. -/
def retryOrSave (w : World) (rel : String) (again : Bool) (answer : Answer) : World :=
  if answer = .full ∧ again = false then { w with stage := .putBack rel true }
  else w.toSave rel (.notPutBack rel)

/-- `copy_back_exclusive`, up to the creation of the file. -/
@[grind =] def copyBack (w : World) (rel : String) (again : Bool) (answer : Answer) : World :=
  match Dict.lookup w.snapshot rel with
  | none => { w with stage := .restore }
  | some node =>
      if answer ≠ .ok then w.retryOrSave rel again answer
      else
        match w.names rel with
        | some inode =>
            if (w.nodes inode).Same node then
              { w with since := Function.update w.since rel false }.putBackDone rel
            else w.toSave rel (.appeared rel)
        | none =>
            let made : World :=
              { w with
                  next := w.next + 1
                  names := Function.update w.names rel (some w.next)
                  since := Function.update w.since rel false }
            match node with
            | .file _ mode =>
                { made with
                    nodes := Function.update w.nodes w.next (.file [] mode)
                    stage := .filling rel w.next again }
            | _ => { made with nodes := Function.update w.nodes w.next node }.putBackDone rel

/-- The copy through the descriptor, and the comparison of `_unlink_if_ours`. -/
@[grind =] def fill (w : World) (rel : String) (inode : Nat) (again : Bool) (answer : Answer) : World :=
  if answer = .ok then
    { w with
        nodes := Function.update w.nodes inode
          ((Dict.lookup w.snapshot rel).getD .special) }.putBackDone rel
  else if w.names rel = some inode then { w with stage := .unlinking rel inode again answer }
  else w.retryOrSave rel again answer

/-- `save_in_trash`: in `.trw/trash`, else beside the name, else nowhere. -/
def saveInTrash (w : World) (rel : String) (answer : Answer) : World :=
  match Dict.lookup w.snapshot rel, answer with
  | some node, .ok =>
      { w with
          saved := w.saved ++ [(.trash, rel, node)]
          stage := .restore
          notes := w.notes ++ [.preUpdateAt rel] }
  | some node, .refused =>
      { w with
          saved := w.saved ++ [(.beside, rel, node)]
          stage := .restore
          notes := w.notes ++ [.preUpdateAt rel] }
  | _, _ =>
      { w with
          unsaved := w.unsaved ++ [rel]
          stage := .restore
          notes := w.notes ++ [.keptOnlyAt rel] }

/-! ## Steps -/

def wanted (w : World) : List String := (w.snapshot.map (·.1)).filter (· ∉ w.intact)

@[grind =] def act (w : World) (answer : Answer) : World :=
  match w.stage with
  | .validate => { w with stage := if answer = .ok then .clear else .failed }
  | .clear =>
      match w.todo with
      | rel :: todo => { w with todo }.look rel answer
      | [] =>
          if answer = .ok then { w with stage := .restore, todo := w.wanted }
          else { w with stage := .failed }
  | .looked rel mode => w.compare rel mode answer
  | .chmod rel mode => w.chmod rel mode answer
  | .capture rel current => w.capture rel current answer
  | .captured rel current inode => w.verify rel current inode answer
  | .mismatched rel current inode => w.linkBack rel current inode answer
  | .matched rel current inode => w.recheck rel current inode answer
  | .verified _ _ inode => { w with kept := w.kept.erase (.trash, inode), stage := .clear }
  | .refused rel current => w.moveAside rel current answer
  | .aside rel current inode => w.recheckAside rel current inode answer
  | .asideVerified _ _ _ => { w with stage := .clear }
  | .asideChanged rel inode => w.linkAside rel inode answer
  | .asideLinked rel _ => { w with stage := .clear, notes := w.notes ++ [.changed rel] }
  | .restore =>
      match w.todo with
      | rel :: todo => { w with todo, stage := .putBack rel false }
      | [] =>
          if answer = .ok then { w with syncHash := none, stage := .done }
          else { w with stage := .failed }
  | .putBack rel again => w.copyBack rel again answer
  | .filling rel inode again => w.fill rel inode again answer
  | .unlinking rel _ again why =>
      { w with names := Function.update w.names rel none }.retryOrSave rel again why
  | .save rel => w.saveInTrash rel answer
  | .done | .failed => w

/-- What another writer takes off a name is its own loss. -/
def replaced (w : World) (rel : String) : List Nat := w.others.filter fun i => w.names rel ≠ some i

@[grind =] def exec (w : World) : Deed → World
  | .act answer => w.act answer
  | .replace rel node =>
      { w with
          nodes := Function.update w.nodes w.next node
          next := w.next + 1
          names := Function.update w.names rel (some w.next)
          others := w.next :: w.replaced rel
          since := Function.update w.since rel true }
  | .remove rel =>
      { w with
          names := Function.update w.names rel none
          others := w.replaced rel
          since := Function.update w.since rel true }
  | .write inode content =>
      match w.nodes inode with
      | .file _ mode =>
          { w with
              nodes := Function.update w.nodes inode (.file content mode)
              others := inode :: w.others
              since := fun rel => w.since rel || w.names rel == some inode }
      | _ => w

end World

end TrwMcp.Rollback
