import TrwMcp.Intent.Dumps
import TrwMcp.Lib.Regex
import TrwMcp.Lib.Effect
import TrwMcp.Lib.Run

/-!
# The pin store

One JSON file, a record a pin key, read and written under one lock. A pin names a run by a path,
which is compared after resolving it; several keys may name one run. `transfer_pin_entry` stops at
the first key that does.
-/

namespace TrwMcp.Pins

open Handoff Intent Lib

/-- A record: the members of its JSON object. Nothing reads their order. -/
abbrev Entry := List (String × Json)

/-- The members of the file's object. -/
structure PinMap where
  items : List (String × Json)
  nodup : (items.map (·.1)).Nodup

/-- `pins.json` as a reader finds it. -/
inductive PinFile where
  | missing
  | unreadable
  | notMapping
  | pins (pins : PinMap)

/-- The store a strict read builds. -/
def PinFile.store : PinFile → PinMap
  | .pins found => found
  | _ => ⟨[], List.nodup_nil⟩

/-- A time `datetime.fromisoformat` reads: microseconds, in UTC where it has no zone. -/
structure Timestamp where
  micros : Int
  aware : Bool

/-- The machine at one call: its clock, its processes and its file system. -/
structure Host where
  /-- `str(Path(path).resolve())` -/
  resolve : String → String
  /-- `Path(path).exists()` -/
  pathExists : String → Bool
  fromisoformat : String → Option Timestamp
  /-- `read_process_start_time` -/
  startTime : Int → Option String
  /-- `pid_is_alive` -/
  alive : Int → Bool
  pid : Int
  ppid : Int
  /-- `datetime.now`, in microseconds -/
  now : Int
  /-- `_iso_now()` -/
  nowText : String
  /-- `resolve_pin_ttl_hours()` -/
  pinTtlHours : Int

/-- `isinstance(value, int)`, which a `bool` is. -/
def asInt : Option Json → Option Int
  | some (.int n) => some n
  | some (.bool b) => some (if b then 1 else 0)
  | _ => none

def asText : Option Json → Option String
  | some (.str s) => some s
  | _ => none

def Entry.get (entry : Entry) (key : String) : Option Json := Dict.lookup entry key

section

variable (host : Host)

/-- `_owner_process_alive` -/
def ownerProcessAlive (entry : Entry) : Bool :=
  match asInt (entry.get "client_pid"), asText (entry.get "client_start") with
  | some client, some start =>
      match host.startTime client with
      | none => host.alive client
      | some born => decide (born = start)
  | _, _ =>
      match asInt (entry.get "pid") with
      | some pid => host.alive pid
      | none => true

/-- `pin_record` -/
def pinRecord (runPath createdTs : String) (clientHint : Json) : Entry :=
  [("run_path", .str runPath), ("created_ts", .str createdTs),
    ("last_heartbeat_ts", .str host.nowText), ("client_hint", clientHint), ("pid", .int host.pid),
    ("client_pid", .int host.ppid),
    ("client_start", ((host.startTime host.ppid).map Json.str).getD .null)]

/-! ## Reading -/

/-- `removesuffix("Z")` of the stripped text. -/
def heartbeatText (text : String) : String :=
  let cs := (text.toList.dropWhile Regex.isSpace).rdropWhile Regex.isSpace
  String.ofList (if cs.getLast? = some 'Z' then cs.dropLast else cs)

/-- `parse_heartbeat_ts` -/
def parseHeartbeatTs (value : Option Json) : Option Int :=
  match asText value with
  | none => none
  | some text =>
      if text = "" then none
      else (host.fromisoformat (heartbeatText text)).map (·.micros)

/-- Hours in microseconds. -/
def hours (n : Rat) : Rat := n * 3600000000

/-- `pin_entry_is_expired`; ages are compared exactly, where the code compares floats. -/
def pinEntryIsExpired (entry : Entry) : Bool :=
  if host.pinTtlHours ≤ 0 then false
  else
    match parseHeartbeatTs host (entry.get "last_heartbeat_ts") with
    | none => false
    | some beat =>
        if ((host.now - beat : Int) : Rat) ≤ hours host.pinTtlHours then false
        else
          match asInt (entry.get "pid") with
          | none => false
          | some pid => !host.alive pid

/-- The path of a record that has one. -/
def runPathOf (value : Json) : Option String :=
  match value with
  | .obj entry =>
      match asText (Entry.get entry "run_path") with
      | some path => if path = "" then none else some path
      | none => none
  | _ => none

/-- One round of `_apply_eviction_passes`. -/
def survives (value : Json) : Bool :=
  match runPathOf value, value with
  | some path, .obj entry => host.pathExists path && !pinEntryIsExpired host entry
  | _, _ => false

def PinMap.filter (pins : PinMap) (keep : String × Json → Bool) : PinMap where
  items := pins.items.filter keep
  nodup := (List.filter_sublist.map _).nodup pins.nodup

/-- `_apply_eviction_passes` -/
def applyEvictionPasses (pins : PinMap) : PinMap := pins.filter fun m => survives host m.2

/-- `load_pin_store`, past its cache: what cannot be read is an empty store. -/
def loadPinStoreUncached : PinFile → PinMap
  | .pins pins => applyEvictionPasses host pins
  | _ => ⟨[], List.nodup_nil⟩

/-- The exceptions of a transfer. -/
inductive StateError where
  | markerUnreadable
  | rootNotMapping
  | invalidPinKey
  | entryNotMapping (pinKey : String)
  | missingRunPath (pinKey : String)
  | invalidHeartbeat (pinKey : String)
  | activelyHeld (pinKey : String)
  deriving DecidableEq

/-- One entry of `_load_pin_store_strict_locked`. -/
def strictEntry (m : String × Json) : Except StateError (String × Entry) :=
  if m.1 = "" then .error .invalidPinKey
  else
    match m.2 with
    | .obj entry =>
        if (runPathOf (.obj entry)).isSome then .ok (m.1, entry)
        else .error (.missingRunPath m.1)
    | _ => .error (.entryNotMapping m.1)

/-- `_load_pin_store_strict_locked` -/
def loadPinStoreStrictLocked : PinFile → Except StateError (List (String × Entry))
  | .missing => .ok []
  | .unreadable => .error .markerUnreadable
  | .notMapping => .error .rootNotMapping
  | .pins pins => pins.items.mapM strictEntry

/-! ## Writing -/

/-- `store[key] = record` -/
def PinMap.set (pins : PinMap) (key : String) (record : Entry) : PinMap where
  items := Dict.set pins.items key (.obj record)
  nodup := Dict.keys_set_nodup pins.nodup key _

/-- `store.pop(key, None)` -/
def PinMap.pop (pins : PinMap) (key : String) : PinMap := pins.filter fun m => m.1 ≠ key

/-- `json.dumps(store, sort_keys=True)`, read again. -/
def PinMap.written (pins : PinMap) : PinFile :=
  .pins
    { items := sortByKey pins.items
      nodup := (((List.perm_insertionSort _ pins.items).map (·.1)).nodup_iff).mpr pins.nodup }

/-- The `created_ts` of the record under a key, where it has one. -/
def createdTsOf (value : Option Json) : Option String :=
  match value with
  | some (.obj entry) =>
      match asText (Entry.get entry "created_ts") with
      | some created => if created = "" then none else some created
      | none => none
  | _ => none

def upsertPinEntry (pinKey runPath : String) (clientHint : Json) (file : PinFile) : PinFile :=
  let store := loadPinStoreUncached host file
  let created := (createdTsOf (Dict.lookup store.items pinKey)).getD host.nowText
  (store.set pinKey (pinRecord host (host.resolve runPath) created clientHint)).written

def removePinEntry (pinKey : String) (file : PinFile) : PinFile :=
  let store := loadPinStoreUncached host file
  if Dict.has store.items pinKey then (store.pop pinKey).written else file

def prunePinStoreOrphans : PinFile → PinFile
  | .pins pins =>
      let survivors := applyEvictionPasses host pins
      if pins.items.length ≤ survivors.items.length then .pins pins else survivors.written
  | file => file

/-! ## The transfer -/

/-- Whether a record names the run at `target`. -/
def namesRun (target : String) (value : Json) : Bool :=
  match runPathOf value with
  | some path => decide (host.resolve path = target)
  | none => false

/-- `heartbeat.replace("Z", "+00:00")` -/
def zoneText (text : String) : String :=
  String.ofList (text.toList.flatMap fun c => if c = 'Z' then ['+', '0', '0', ':', '0', '0'] else [c])

/-- The heartbeat of a record, as `transfer_pin_entry` reads it: with a zone. -/
def strictHeartbeat (entry : Entry) : Option Int :=
  (asText (entry.get "last_heartbeat_ts")).bind fun text =>
    (host.fromisoformat (zoneText text)).bind fun stamp =>
      if stamp.aware then some stamp.micros else none

/-- A heartbeat younger than the TTL, and a living owner process. -/
def isLive (pinTtlHours : Rat) (entry : Entry) : Bool :=
  match strictHeartbeat host entry with
  | some beat =>
      decide (((host.now - beat : Int) : Rat) < hours pinTtlHours) && ownerProcessAlive host entry
  | none => false

structure TransferArgs where
  callerPinKey : String
  runPath : String
  force : Bool
  pinTtlHours : Rat

/-- What a transfer returns: the record, the key it was taken from, the age of its heartbeat in
microseconds, whether its owner was live. -/
structure Transferred where
  record : Entry
  previousPinKey : Option String
  heartbeatAge : Option Int
  ownerWasLive : Bool

/-- The first entry that names the run. -/
def previousEntry (target : String) (store : List (String × Entry)) : Option (String × Entry) :=
  store.find? fun m => namesRun host target (.obj m.2)

/-- The store without the entry the run is taken from. -/
def keptStore (caller : String) (previous : Option (String × Entry)) (store : PinMap) : PinMap :=
  match previous with
  | some (key, _) => if key ≠ caller then store.pop key else store
  | none => store

/-- `transfer_pin_entry`, once the transfer is allowed. -/
def finishTransfer (args : TransferArgs) (store : PinMap) (previous : Option (String × Entry))
    (age : Option Int) (wasLive : Bool) : Eff StateError PinFile Transferred := do
  let created := (createdTsOf (Dict.lookup store.items args.callerPinKey)).getD host.nowText
  let record := pinRecord host (host.resolve args.runPath) created .null
  Eff.update fun _ =>
    ((keptStore args.callerPinKey previous store).set args.callerPinKey record).written
  return ⟨record, previous.map (·.1), age, wasLive⟩

/-- `transfer_pin_entry` -/
def transferPinEntry (args : TransferArgs) : Eff StateError PinFile Transferred := do
  let file ← Eff.read
  match loadPinStoreStrictLocked file with
  | .error e => Eff.raise e
  | .ok store =>
      match previousEntry host (host.resolve args.runPath) store with
      | none => finishTransfer host args file.store none none false
      | some (key, entry) =>
          match strictHeartbeat host entry with
          | none => Eff.raise (.invalidHeartbeat key)
          | some beat =>
              let live := isLive host args.pinTtlHours entry
              if live ∧ key ≠ args.callerPinKey ∧ !args.force then Eff.raise (.activelyHeld key)
              else
                finishTransfer host args file.store (some (key, entry))
                  (some (host.now - beat)) live

end

end TrwMcp.Pins
