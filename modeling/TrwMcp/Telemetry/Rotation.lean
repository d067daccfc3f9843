import Mathlib.Data.List.Sort
import TrwMcp.Lib.Files

/-!
# Log rotation

Writers append to one log and rotators close it into numbered segments and compress these, any
number of each at once. A writer holds the file it opened, whatever name it has by the time the line
is written.
-/

namespace TrwMcp.Telemetry

open Lib

/-- The log, and what rotation makes of it. -/
inductive LogFile where
  | active
  /-- `<log>.<k>` -/
  | segment (k : Nat)
  /-- `<log>.<k>.gz` -/
  | archive (k : Nat)
  /-- `<log>.<k>.gz.tmp` -/
  | scratch (k : Nat)
  deriving DecidableEq

def LogFile.index : LogFile → Option Nat
  | .active => none
  | .segment k | .archive k | .scratch k => some k

/-- What follows the name of the log. -/
def LogFile.suffix : LogFile → String
  | .active => ""
  | .segment k => "." ++ toString k
  | .archive k => "." ++ toString k ++ ".gz"
  | .scratch k => "." ++ toString k ++ ".gz.tmp"

/-- A line of the log, without its newline. Who wrote it and its number are kept by nothing. -/
structure LogLine (A : Type) where
  writer : A
  number : Nat
  text : String
  deriving DecidableEq

/-- The bytes of a text. -/
@[grind =] def sizeOfLines {A : Type} : List (LogLine A) → Nat
  | [] => 0
  | line :: lines => line.text.utf8ByteSize + 1 + sizeOfLines lines

/-- The arguments of `rotate_and_compress`; ages are in nanoseconds. -/
structure LogLimits where
  maxBytes : Int
  minAge : Int := 0
  referenced : List LogFile := []
  now : Option Nat := none

/-- What `stat` says of a file. -/
structure LogStat where
  size : Nat
  mtime : Nat
  deriving DecidableEq

/-- How far the compression of one segment is. -/
inductive Compression (A : Type) where
  | reading
  /-- the scratch file is opened next -/
  | opening (original : List (LogLine A))
  | writing (original : List (LogLine A)) (i : Nat)
  | checking (original : List (LogLine A))
  | replacing (original : List (LogLine A))
  | comparing (original : List (LogLine A))
  | unlinking (original : List (LogLine A))

/-- Where a process stands. -/
inductive LogStage (A : Type) where
  /-- `append_jsonl` has opened the file -/
  | opened (i : Nat) (line : LogLine A)
  | locked (i : Nat) (line : LogLine A)
  /-- the log was there -/
  | found (limits : LogLimits) (now : Nat)
  | waiting (limits : LogLimits) (now : Nat) (i : Nat)
  /-- the lock of this file is taken -/
  | measuring (limits : LogLimits) (now : Nat) (i : Nat)
  | counting (limits : LogLimits) (now : Nat) (i : Nat)
  | sealing (limits : LogLimits) (now : Nat) (i : Nat) (k : Nat)
  | touching (limits : LogLimits) (now : Nat) (i : Nat)
  | listing (limits : LogLimits) (now : Nat)
  /-- the names that are left of the list -/
  | going (limits : LogLimits) (now : Nat) (todo : List LogFile)
  | compressing (limits : LogLimits) (now : Nat) (k : Nat) (st : LogStat) (how : Compression A)
      (todo : List LogFile)

/-- The files, the locks, the clock and the processes. The highest index given, the count of the
appends, the lines whose append returned and the lines that were in a file which was replaced by
another without them are kept by nothing. -/
structure LogWorld (A : Type) where
  files : Files LogFile (LogLine A) := {}
  mtime : Nat → Nat := fun _ => 0
  locks : Nat → Option A := fun _ => none
  now : Nat := 0
  stages : A → Option (LogStage A) := fun _ => none
  last : Nat := 0
  count : Nat := 0
  returned : List (LogLine A) := []
  lost : List (LogLine A) := []

/-- What happens: a process starts a call, goes on with it, or stops; a step that touches the disk
may fail. -/
inductive LogDeed (A : Type) where
  | tick (nanoseconds : Nat)
  | append (a : A) (text : String)
  | rotate (a : A) (limits : LogLimits)
  /-- `rotate_pipeline_telemetry_log` -/
  | rotatePipeline (a : A) (maxBytes : Int)
  | act (a : A) (works : Bool)
  | stop (a : A)

section

variable {A : Type} [DecidableEq A]

@[grind =] def LogWorld.setStage (w : LogWorld A) (a : A) (stage : Option (LogStage A)) : LogWorld A :=
  { w with stages := Function.update w.stages a stage }

/-- The end of a process's call, or of the process: its lock goes with it. -/
def LogWorld.leave (w : LogWorld A) (a : A) : LogWorld A :=
  { w with
      stages := Function.update w.stages a none
      locks := fun i => if w.locks i = some a then none else w.locks i }

/-- The lock is let go, and the call goes on. -/
def LogWorld.unlock (w : LogWorld A) (a : A) (i : Nat) (stage : LogStage A) : LogWorld A :=
  { w with
      stages := Function.update w.stages a (some stage)
      locks := Function.update w.locks i none }

/-- The text under a name, empty when nothing has it. -/
@[grind =] def LogWorld.textOf (w : LogWorld A) (n : LogFile) : List (LogLine A) :=
  (w.files.read n).getD []

def LogWorld.stat (w : LogWorld A) (n : LogFile) : Option LogStat :=
  (w.files.node n).map fun i => ⟨sizeOfLines (w.files.text i), w.mtime i⟩

@[grind =] def LogWorld.exists (w : LogWorld A) (n : LogFile) : Bool := (w.files.node n).isSome

/-- The indices that siblings of the log have. -/
def LogWorld.used (w : LogWorld A) : List Nat :=
  (List.range (w.last + 1)).filter fun k =>
    w.exists (.segment k) || w.exists (.archive k) || w.exists (.scratch k)

def LogWorld.nextIndex (w : LogWorld A) : Nat := w.used.foldl max 0 + 1

/-- `sorted(path.parent.glob(path.name + ".*"))`. -/
def LogWorld.siblings (w : LogWorld A) : List LogFile :=
  let names := (List.range (w.last + 1)).flatMap fun k => [.segment k, .archive k, .scratch k]
  (names.filter w.exists).insertionSort (·.suffix ≤ ·.suffix)

/-- The open of `append_jsonl`, which makes the log when it is not there. -/
def LogWorld.openLog (w : LogWorld A) : LogWorld A :=
  { w with
      files := w.files.opened .active
      mtime := if w.exists .active then w.mtime
        else Function.update w.mtime w.files.next w.now }

def LogWorld.append (w : LogWorld A) (a : A) (text : String) : LogWorld A :=
  if (w.stages a).isSome then w
  else
    { w.openLog with count := w.count + 1 }.setStage a
      (some (.opened (w.files.openNode .active) ⟨a, w.count, text⟩))

def LogWorld.rotate (w : LogWorld A) (a : A) (limits : LogLimits) : LogWorld A :=
  if (w.stages a).isSome then w
  else
    let now := limits.now.getD w.now
    -- `max_bytes must be positive`
    if limits.maxBytes ≤ 0 then w
    else if w.exists .active then w.setStage a (some (.found limits now))
    else w.setStage a (some (.listing limits now))

def LogWorld.rotatePipeline (w : LogWorld A) (a : A) (maxBytes : Int) : LogWorld A :=
  match w.stat .active with
  | some st => if (st.size : Int) ≤ maxBytes then w else w.rotate a { maxBytes }
  | none => w

/-- One name of the list. -/
def LogWorld.visit (w : LogWorld A) (a : A) (limits : LogLimits) (now : Nat)
    (todo : List LogFile) : LogFile → LogWorld A
  | .active | .archive _ => w.setStage a (some (.going limits now todo))
  | .scratch k =>
      { w with files := w.files.unlink (.scratch k) }.setStage a (some (.going limits now todo))
  | .segment k =>
      if .segment k ∈ limits.referenced then w.setStage a (some (.going limits now todo))
      else match w.stat (.segment k) with
        | none => w.setStage a (some (.going limits now todo))
        | some st =>
            if (now : Int) - st.mtime < limits.minAge then
              w.setStage a (some (.going limits now todo))
            else w.setStage a (some (.compressing limits now k st .reading todo))

/-- `tmp.unlink(missing_ok=True)`, and the segment counts as corrupt. -/
def LogWorld.corrupt (w : LogWorld A) (a : A) (limits : LogLimits) (now k : Nat)
    (todo : List LogFile) : LogWorld A :=
  { w with files := w.files.unlink (.scratch k) }.setStage a (some (.going limits now todo))

/-- The next step of a compression. -/
def LogWorld.compress (w : LogWorld A) (a : A) (works : Bool) (limits : LogLimits) (now k : Nat)
    (st : LogStat) (todo : List LogFile) : Compression A → LogWorld A
  | .reading =>
      match w.files.read (.segment k), works with
      | some original, true =>
          w.setStage a (some (.compressing limits now k st (.opening original) todo))
      | _, _ => w.leave a
  | .opening original =>
      if works then
        -- the file that has the name is emptied, else one is made
        let i := w.files.openNode (.scratch k)
        { w with
            files := (w.files.opened (.scratch k)).truncate i
            mtime := Function.update w.mtime i w.now }.setStage a
          (some (.compressing limits now k st (.writing original i) todo))
      else w.corrupt a limits now k todo
  | .writing original i =>
      if works then
        { w with
            files := w.files.write i original
            mtime := Function.update w.mtime i w.now }.setStage a
          (some (.compressing limits now k st (.checking original) todo))
      else w.corrupt a limits now k todo
  | .checking original =>
      match w.files.read (.scratch k), works with
      | some verified, true =>
          if verified.map (·.text) = original.map (·.text) then
            w.setStage a (some (.compressing limits now k st (.replacing original) todo))
          else w.corrupt a limits now k todo
      | _, _ => w.corrupt a limits now k todo
  | .replacing original =>
      if w.exists (.scratch k) && works then
        { w with
            files := w.files.rename (.scratch k) (.archive k)
            lost := w.lost ++
              (w.textOf (.archive k)).filter (· ∉ w.textOf (.scratch k)) }.setStage a
          (some (.compressing limits now k st (.comparing original) todo))
      else w.leave a
  | .comparing original =>
      if works && w.stat (.segment k) = some st then
        w.setStage a (some (.compressing limits now k st (.unlinking original) todo))
      else w.setStage a (some (.going limits now todo))
  | .unlinking _ =>
      if w.exists (.segment k) && works then
        { w with files := w.files.unlink (.segment k) }.setStage a (some (.going limits now todo))
      else w.leave a

/-- The next step of a process. -/
@[grind =] def LogWorld.act (w : LogWorld A) (a : A) (works : Bool) : LogStage A → LogWorld A
  | .opened i line =>
      if w.locks i = none then
        { w with locks := Function.update w.locks i (some a) }.setStage a (some (.locked i line))
      else w
  | .locked i line =>
      if works then
        { w with
            files := w.files.write i [line]
            mtime := Function.update w.mtime i w.now
            returned := w.returned ++ [line] }.leave a
      else w.leave a
  | .found limits now =>
      match w.files.node .active with
      | some i => w.setStage a (some (.waiting limits now i))
      | none => w.leave a
  | .waiting limits now i =>
      if w.locks i = none then
        { w with locks := Function.update w.locks i (some a) }.setStage a
          (some (.measuring limits now i))
      else w
  | .measuring limits now i =>
      match w.stat .active with
      | some st =>
          if limits.maxBytes < st.size then w.setStage a (some (.counting limits now i))
          else w.unlock a i (.listing limits now)
      | none => w.leave a
  | .counting limits now i => w.setStage a (some (.sealing limits now i w.nextIndex))
  | .sealing limits now i k =>
      if w.exists .active && works then
        { w with
            files := w.files.rename .active (.segment k)
            last := max w.last k
            lost := w.lost ++
              (w.textOf (.segment k)).filter (· ∉ w.textOf .active) }.setStage a
          (some (.touching limits now i))
      else w.leave a
  | .touching limits now i =>
      let j := w.files.openNode .active
      { w with
          files := w.files.opened .active
          mtime := Function.update w.mtime j w.now }.unlock a i (.listing limits now)
  | .listing limits now => w.setStage a (some (.going limits now w.siblings))
  | .going _ _ [] => w.leave a
  | .going limits now (n :: todo) => w.visit a limits now todo n
  | .compressing limits now k st how todo => w.compress a works limits now k st todo how

/-- One step. -/
def LogWorld.exec (w : LogWorld A) : LogDeed A → LogWorld A
  | .tick nanoseconds => { w with now := w.now + nanoseconds }
  | .append a text => w.append a text
  | .rotate a limits => w.rotate a limits
  | .rotatePipeline a maxBytes => w.rotatePipeline a maxBytes
  | .act a works =>
      match w.stages a with
      | some stage => w.act a works stage
      | none => w
  | .stop a => w.leave a

/-! ## What the log holds -/

/-- The segment, or its archive when it is compressed. -/
def LogWorld.part (w : LogWorld A) (k : Nat) : List (LogLine A) :=
  if w.exists (.segment k) then w.textOf (.segment k) else w.textOf (.archive k)

/-- The parts by their index; the active file comes after the last one. -/
def LogWorld.chunk (w : LogWorld A) (k : Nat) : List (LogLine A) :=
  if k ≤ w.last then w.part k else if k = w.last + 1 then w.textOf .active else []

/-- The segments in index order, and the active file. -/
def LogWorld.lines (w : LogWorld A) : List (LogLine A) :=
  (List.range (w.last + 2)).flatMap w.chunk

/-- Lines of one writer stand in the order of the appends. -/
def Before (line line' : LogLine A) : Prop :=
  line.writer = line'.writer → line.number < line'.number

end

end TrwMcp.Telemetry
