import TrwMcp.Lib.Except
import TrwMcp.Lib.Dict
import Mathlib.Data.List.DropRight

/-!
# Git on behalf of the merge queue

`prepare` and `apply` as functions of what the git commands answer. A command that is stopped may or
may not have had its effect; the one whose effect matters is the `update-ref` at the end of `apply`,
so `apply` also says whether it moved the target.
-/

namespace TrwMcp.Formation

open Lib

/-- What one git command did, as far as the caller sees it. -/
inductive GitOutcome where
  /-- exit status 0 -/
  | out (stdout : String)
  /-- another exit status -/
  | refused (status : Int)
  /-- not started, or stopped at its time limit -/
  | unavailable
  /-- its output could not be decoded -/
  | undecodable
  deriving DecidableEq

/-- How an attempt ends early: with a recorded reason, with ownership unverified, or with an
exception nothing catches. -/
inductive Stop where
  | reason (reason : String)
  | ownership
  | uncaught
  deriving DecidableEq

abbrev Attempt := Except Stop

abbrev Git := List String → GitOutcome

/-- `_git` -/
def gitOut (git : Git) (args : List String) : Attempt String :=
  match git args with
  | .out stdout => pure stdout
  | .refused _ => throw (.reason "git_refused")
  | .unavailable => throw (.reason "git_unavailable")
  | .undecodable => throw .uncaught

def isSpace (c : Char) : Bool := c.isWhitespace

/-- `text.strip()` on git's ASCII output -/
def stripped (text : String) : String :=
  String.ofList ((text.toList.dropWhile isSpace).rdropWhile isSpace)

/-- `text.splitlines()` on git's output -/
def linesOf (text : String) : List String :=
  let parts := text.toList.splitOn '\n'
  (if parts.getLast? = some [] then parts.dropLast else parts).map String.ofList

/-- `_SHA.fullmatch(value)` -/
def isSha (value : String) : Bool :=
  decide (40 ≤ value.length ∧ value.length ≤ 64) &&
    value.toList.all fun c => c.isDigit || decide ('a' ≤ c ∧ c ≤ 'f')

/-- `int(digits)` -/
def decimal (digits : List Char) : Nat := digits.foldl (fun n d => n * 10 + (d.toNat - 48)) 0

/-- `(\d+)\.(\d+)` at the start of the text -/
def versionAt (text : List Char) : Option (Nat × Nat) :=
  let major := text.takeWhile Char.isDigit
  match major, text.dropWhile Char.isDigit with
  | _ :: _, '.' :: rest =>
      let minor := rest.takeWhile Char.isDigit
      if minor = [] then none else some (decimal major, decimal minor)
  | _, _ => none

/-- `_VERSION.search` -/
def gitVersion (text : String) : Option (Nat × Nat) :=
  text.toList.tails.findSome? fun t =>
    if "git version ".toList.isPrefixOf t then versionAt (t.drop 12) else none

def versionCheck (git : Git) : Attempt Unit := do
  match gitVersion (← gitOut git ["--version"]) with
  | some (major, minor) =>
      if major < 2 ∨ major = 2 ∧ minor < 38 then throw (.reason "git_too_old")
  | none => throw (.reason "git_too_old")

/-- `_branch_ref` -/
def branchRef (git : Git) (branch : String) : Attempt String := do
  if branch = "" ∨ "-".toList.isPrefixOf branch.toList ∨ "refs/".toList.isPrefixOf branch.toList then
    throw (.reason "invalid_branch")
  let _ ← gitOut git ["check-ref-format", "--branch", branch]
  return "refs/heads/" ++ branch

/-- `_sha` -/
def commitId (git : Git) (ref : String) : Attempt String := do
  let value := stripped (← gitOut git ["rev-parse", "--verify", ref ++ "^\x7bcommit\x7d"])
  if isSha value then return value else throw (.reason "invalid_sha")

/-- `_paths` -/
def changedPaths (git : Git) (before after : String) : Attempt (List String) := do
  let raw ← gitOut git ["diff-tree", "--no-commit-id", "--name-only", "-r", "-z", before, after]
  return ((raw.toList.splitOn '\x00').filter (· ≠ [])).map String.ofList

def targetNotCheckedOut (git : Git) (targetRef : String) : Attempt Unit := do
  let listing ← gitOut git ["worktree", "list", "--porcelain"]
  if ("branch " ++ targetRef) ∈ linesOf listing then throw (.reason "target_checked_out")

/-- `_protected_target`. This command has its own error handling. -/
def protectedTarget (git : Git) (target : String) : Attempt Unit :=
  if target = "main" ∨ target = "master" then throw (.reason "protected_target")
  else
    match git ["symbolic-ref", "-q", "--short", "refs/remotes/origin/HEAD"] with
    | .unavailable => throw (.reason "git_unavailable")
    | .undecodable => throw .uncaught
    | .refused status =>
        if status = 1 then pure () else throw (.reason "default_branch_unavailable")
    | .out stdout =>
        if stripped stdout = "origin/" ++ target then throw (.reason "protected_target")
        else pure ()

/-- The tree of the merge; every refusal is reported as a conflict. -/
def mergeTree (git : Git) (old sha : String) : Attempt String :=
  match gitOut git ["merge-tree", "--write-tree", old, sha] with
  | .error (.reason _) => throw (.reason "conflict")
  | .error stop => throw stop
  | .ok stdout =>
      match linesOf stdout with
      | [] => throw .uncaught
      | tree :: _ => if isSha tree then pure tree else throw (.reason "conflict")

/-- `prepare`: the old target, the merged tree and the changed paths. -/
def prepare (git : Git) (branch sha target : String) :
    Attempt (String × String × List String) := do
  versionCheck git
  if !isSha sha then throw (.reason "invalid_sha")
  let source ← branchRef git branch
  let targetRef ← branchRef git target
  protectedTarget git target
  targetNotCheckedOut git targetRef
  if (← commitId git source) ≠ sha then throw (.reason "stale_sha")
  let old ← commitId git targetRef
  let base := stripped (← gitOut git ["merge-base", old, sha])
  let changed ← changedPaths git base sha
  let tree ← mergeTree git old sha
  return (old, tree, changed)

/-- `apply` up to the commit it writes. -/
def writeCommit (git : Git) (branch sha target old tree : String) :
    Attempt (String × String) := do
  let source ← branchRef git branch
  let targetRef ← branchRef git target
  protectedTarget git target
  targetNotCheckedOut git targetRef
  if (← commitId git source) ≠ sha then throw (.reason "stale_sha")
  if (← commitId git targetRef) ≠ old then throw (.reason "target_moved")
  let merged := stripped (← gitOut git ["commit-tree", tree, "-p", old, "-p", sha, "-m",
    "Merge approved " ++ branch ++ " at " ++ sha])
  if isSha merged then return (targetRef, merged) else throw (.reason "git_refused")

/-- `apply`, and whether the target ref moved. An `update-ref` that exits with status 0 moved it; of
any other `moves` says what it did. -/
def apply (git : Git) (moves : Bool) (branch sha target old tree : String) :
    Attempt String × Bool :=
  match writeCommit git branch sha target old tree with
  | .error stop => (throw stop, false)
  | .ok (targetRef, merged) =>
      match git ["update-ref", targetRef, merged, old] with
      | .out _ => (pure merged, true)
      | .undecodable => (throw .uncaught, moves)
      | .refused _ | .unavailable => (throw (.reason "target_moved"), moves)

/-- A recorded merge moved the target. Without a failing `update-ref` that had its effect all the
same, an early end did not. -/
theorem apply_moved {git : Git} {moves : Bool} {branch sha target old tree : String} :
    (∀ merged, (apply git moves branch sha target old tree).1 = .ok merged →
      (apply git moves branch sha target old tree).2 = true) ∧
    (∀ stop, (apply git moves branch sha target old tree).1 = .error stop → moves = false →
      (apply git moves branch sha target old tree).2 = false) := by
  unfold apply
  cases writeCommit git branch sha target old tree with
  | error stop => exact ⟨fun _ h => (nomatch h), fun _ _ _ => rfl⟩
  | ok found =>
      obtain ⟨targetRef, merged⟩ := found
      dsimp only
      cases git ["update-ref", targetRef, merged, old] with
      | out stdout => exact ⟨fun _ _ => rfl, fun _ h => (nomatch h)⟩
      | refused status | unavailable | undecodable =>
          exact ⟨fun _ h => (nomatch h), fun _ _ hmoves => hmoves⟩

end TrwMcp.Formation
