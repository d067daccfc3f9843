import TrwMcp.Lib.Dict
import TrwMcp.Lib.Text
import Mathlib.Order.Lattice

/-!
# The sweep of stale runs

The sweep looks at every run directory and marks the active ones abandoned that nothing has touched
for long. Parsing a run's YAML file is slow, so two scans of its first bytes may answer before it:
one for the status, one for the protection. Either may abstain.
-/

namespace TrwMcp.RunGc

open Lib Regex

/-- A value of a loaded YAML file: what the sweep tells apart, and the `str` of any other. -/
inductive Yaml where
  | null
  | bool (b : Bool)
  | str (text : List Char)
  | other (text : List Char)
  deriving DecidableEq

/-- `str(value)` -/
def Yaml.text : Yaml → List Char
  | .null => "None".toList
  | .bool true => "True".toList
  | .bool false => "False".toList
  | .str text => text
  | .other text => text

abbrev Data := Dict String Yaml

/-- What the sweep uses of Python: decoding with replacement, `\w`, `lower`, the YAML parser
(`none` where it raises or gives no map). -/
structure Py where
  decode : List UInt8 → List Char
  isWord : Char → Bool
  lower : List Char → List Char
  load : List UInt8 → Option Data

/-- What the locked update of a run's file meets: it raises before the file is read, there is no
file, or the file is read and its write may fail. -/
inductive Locked where
  | raises
  | missing
  | found (data : Data) (writes : Bool)

/-- A run directory and its files, which do not change during a sweep. A file that is missing has
no time, a `run.yaml` that cannot be read no bytes. -/
structure RunDir (τ : Type) where
  name : String
  resolved : String
  runYaml : Option (List UInt8)
  locked : Locked
  eventsTime : Option τ
  runYamlTime : Option τ
  checkpointsTime : Option τ
  heartbeatTime : Option τ

/-! ## The prefilters -/

section

variable (py : Py)

/-- The text from every line on; `^` stands in front of each. -/
@[grind =] def lineStarts : List Char → List (List Char)
  | [] => []
  | c :: cs => if c = '\n' then cs :: lineStarts cs else lineStarts cs

def isQuote (c : Char) : Bool := c = '\'' || c = '"'

def isStatusChar (c : Char) : Bool := py.isWord c || c = '-'

/-- `status:\s*['"]?([\w-]+)['"]?` at the head of a text. -/
def statusAt (text : List Char) : Option (List Char) :=
  if "status:".toList.isPrefixOf text then
    let rest := (text.drop 7).dropWhile isSpace
    let rest := if rest.head?.any isQuote then rest.tail else rest
    let word := rest.takeWhile (isStatusChar py)
    if word.isEmpty then none else some word
  else none

/-- `protected:\s*(true|false|True|False)\s*$` at the head of a text: behind the word only blanks
stand on its line. -/
def protectedAt (text : List Char) : Option (List Char) :=
  if "protected:".toList.isPrefixOf text then
    let rest := (text.drop 10).dropWhile isSpace
    ["true".toList, "false".toList, "True".toList, "False".toList].find? fun word =>
      word.isPrefixOf rest && ((rest.drop word.length).takeWhile (· ≠ '\n')).all isSpace
  else none

/-- `re.search` of a pattern that begins with `^`. -/
def searchLines (at_ : List Char → Option (List Char)) (text : List Char) : Option (List Char) :=
  (text :: lineStarts text).findSome? at_

variable {τ : Type}

/-- `_read_yaml_header` -/
def readYamlHeader (run : RunDir τ) : Option (List Char) :=
  run.runYaml.map fun bytes => py.decode (bytes.take 4096)

/-- `_prefilter_status` -/
def prefilterStatus (run : RunDir τ) : Option (List Char) := do
  let text ← readYamlHeader py run
  let word ← searchLines (statusAt py) text
  let status := py.lower (Text.stripChars word)
  if status.isEmpty then none else some status

/-- `_prefilter_protected` -/
def prefilterProtected (run : RunDir τ) : Option Bool := do
  let text ← readYamlHeader py run
  let word ← searchLines protectedAt text
  return py.lower word = "true".toList

/-- `_load_run_yaml` -/
def loadRunYaml (run : RunDir τ) : Option Data := run.runYaml.bind py.load

/-- `str(status).strip().lower()` -/
def statusText (value : Yaml) : List Char := py.lower (Text.stripChars value.text)

end

/-- `RunStatus.ACTIVE` -/
def active : List Char := "active".toList

/-- `is_terminal_status`: the canonical words and the one legacy spelling. -/
def isTerminalStatus (status : List Char) : Bool :=
  ["complete".toList, "delivered".toList, "abandoned".toList, "completed".toList].contains
    (Text.stripChars status)

/-! ## The report -/

/-- `StaleRunReport`, without its duration. -/
structure Report where
  runsScanned : Nat := 0
  runsAbandoned : Nat := 0
  runsPreservedPinned : Nat := 0
  runsPreservedProtected : Nat := 0
  runsInGraceWindow : Nat := 0
  runsSkippedTerminal : Nat := 0
  runsSkippedMalformed : Nat := 0
  abandonedRunIds : List String := []
  nearStaleRunIds : List String := []
  deriving DecidableEq

/-- What a run is counted as. -/
inductive Category where
  | abandoned | pinned | protected_ | grace | terminal | malformed
  deriving DecidableEq

namespace Report

variable (t : Report)

/-- The counter of a category. -/
def counter : Category → Nat
  | .abandoned => t.runsAbandoned
  | .pinned => t.runsPreservedPinned
  | .protected_ => t.runsPreservedProtected
  | .grace => t.runsInGraceWindow
  | .terminal => t.runsSkippedTerminal
  | .malformed => t.runsSkippedMalformed

def scan : Report := { t with runsScanned := t.runsScanned + 1 }

def pinned : Report := { t with runsPreservedPinned := t.runsPreservedPinned + 1 }

def protected_ : Report := { t with runsPreservedProtected := t.runsPreservedProtected + 1 }

def terminal : Report := { t with runsSkippedTerminal := t.runsSkippedTerminal + 1 }

def malformed : Report := { t with runsSkippedMalformed := t.runsSkippedMalformed + 1 }

def grace (name : String) : Report :=
  { t with
    runsInGraceWindow := t.runsInGraceWindow + 1
    nearStaleRunIds := t.nearStaleRunIds ++ [name] }

def abandon (name : String) : Report :=
  { t with
    runsAbandoned := t.runsAbandoned + 1
    abandonedRunIds := t.abandonedRunIds ++ [name] }

/-- `abandoned_ids.pop()` and `runs_abandoned -= 1` -/
def takeBack : Report :=
  { t with
    runsAbandoned := t.runsAbandoned - 1
    abandonedRunIds := t.abandonedRunIds.dropLast }

/-- Both lists sorted. -/
def sorted : Report :=
  { t with
    abandonedRunIds := t.abandonedRunIds.mergeSort (· ≤ ·)
    nearStaleRunIds := t.nearStaleRunIds.mergeSort (· ≤ ·) }

end Report

/-! ## The sweep -/

/-- What the update of a run's file came to. -/
inductive Landed where
  | abandoned | protected_ | terminal
  deriving DecidableEq

section

variable (py : Py)

/-- `data.get("status", "")` as a word. -/
def currentStatus (data : Data) : List Char :=
  statusText py ((Dict.lookup data "status").getD (.str []))

/-- The scan's status word; a status of `None` is the empty word. -/
def parsedStatus (data : Data) : List Char :=
  match Dict.lookup data "status" with
  | none | some .null => []
  | some value => statusText py value

/-- `data.get("protected") is True` -/
def isProtected (data : Data) : Bool := Dict.lookup data "protected" = some (.bool true)

/-- `_abandon_under_lock`, or the exception of the update. -/
def abandonUnderLock : Locked → Option Landed
  | .raises => none
  | .missing => some .terminal
  | .found data writes =>
      if currentStatus py data ≠ active then some .terminal
      else if isProtected data then some .protected_
      else if writes then some .abandoned
      else none

variable {τ : Type} [LinearOrder τ] [Zero τ]

/-- `compute_last_activity` -/
def computeLastActivity (run : RunDir τ) : τ :=
  max (max (max (run.eventsTime.getD 0) (run.runYamlTime.getD 0)) (run.checkpointsTime.getD 0))
    (run.heartbeatTime.getD 0)

/-- What a sweep is called with: the two cutoffs, the resolved pins, whether it only reports. -/
structure SweepArgs (τ : Type) where
  stalenessCutoff : τ
  graceCutoff : τ
  pinned : List String
  dryRun : Bool

variable (args : SweepArgs τ)

/-- The loop's body from the pins on. -/
def sweepActive (t : Report) (run : RunDir τ) : Report :=
  if args.pinned.contains run.resolved then t.pinned
  else
    let lastActivity := computeLastActivity run
    if args.stalenessCutoff ≤ lastActivity then t
    else if args.graceCutoff ≤ lastActivity then t.grace run.name
    else
      -- the abandon path: the state is read again
      match loadRunYaml py run with
      | none => t.malformed
      | some data =>
          if currentStatus py data ≠ active then t.terminal
          else if isProtected data then t.protected_
          else
            let lastActivity := computeLastActivity run
            if args.graceCutoff ≤ lastActivity then
              if lastActivity < args.stalenessCutoff then t.grace run.name else t
            else
              let t := t.abandon run.name
              if args.dryRun then t
              else
                match abandonUnderLock py run.locked with
                | none => t.takeBack.malformed
                | some .abandoned => t
                | some .protected_ => t.takeBack.protected_
                | some .terminal => t.takeBack.terminal

/-- The loop's body for given answers of the two prefilters. -/
def sweepOne (status : Option (List Char)) (protected_ : Option Bool) (t : Report)
    (run : RunDir τ) : Report :=
  let t := t.scan
  match status with
  | some status =>
      if isTerminalStatus status then t.terminal
      else if status = active then
        if protected_ = some true then t.protected_ else sweepActive py args t run
      else t.terminal
  | none =>
      match loadRunYaml py run with
      | none => t.malformed
      | some data =>
          let status := parsedStatus py data
          if isTerminalStatus status then t.terminal
          else if status ≠ active then t.terminal
          else if isProtected data then t.protected_
          else sweepActive py args t run

/-- The sweep, for two prefilters. -/
def sweepWith (statusOf : RunDir τ → Option (List Char)) (protectedOf : RunDir τ → Option Bool)
    (runs : List (RunDir τ)) : Report :=
  (runs.foldl (fun t run => sweepOne py args (statusOf run) (protectedOf run) t run) {}).sorted

/-- `sweep_stale_runs` -/
def sweepStaleRuns (runs : List (RunDir τ)) : Report :=
  sweepWith py args (prefilterStatus py) (prefilterProtected py) runs

/-- The sweep in which the parser decides: both prefilters always abstain. -/
def sweepParsed (runs : List (RunDir τ)) : Report :=
  sweepWith py args (fun _ => none) (fun _ => none) runs

end

end TrwMcp.RunGc
