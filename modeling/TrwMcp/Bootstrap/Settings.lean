import TrwMcp.Intent.ControlPlane

/-!
# Merging settings.json

The bundled settings are merged into the user's: missing env keys are added, and under each event
the bundled hook entries whose commands are not there yet. An entry is known by its commands joined
into one text; a timeout is found by one command alone. The status line has an owner of its own and
is not merged here.
-/

namespace TrwMcp.Bootstrap

open Handoff Intent Lib

/-- `_LEGACY_TIMEOUT_FLOOR` -/
def legacyTimeoutFloor : Int := 600

/-- `_LEGACY_SHIPPED_TIMEOUTS` -/
def legacyShippedTimeouts : List Int := [500, 3000, 5000, 10000]

def legacyTimeout (timeout : Int) : Bool :=
  legacyTimeoutFloor < timeout || timeout ∈ legacyShippedTimeouts

/-- The hooks of an entry that is an object with a list of them. -/
def entryHooks : Json → List Json
  | .obj ms =>
      match Dict.lookup ms "hooks" with
      | some (.arr hooks) => hooks
      | _ => []
  | _ => []

section

variable (lib : Stdlib)

def isDict : Json → Bool
  | .obj _ => true
  | _ => false

def entryCommands (entry : Json) : List String :=
  ((entryHooks entry).filter isDict).map (hookCommand lib)

/-- `_hook_entry_identity` -/
def hookEntryIdentity (entry : Json) : String :=
  let commands := entryCommands lib entry
  if commands ≠ [] then "|".intercalate (commands.insertionSort (· ≤ ·))
  else String.ofList (dumps lib spaced entry)

/-- `str(hook.get("command"))` -/
def commandName (ms : List (String × Json)) : String :=
  pyStr lib ((Dict.lookup ms "command").getD .null)

/-- The timeout a bundled hook gives its command, if it is an integer. -/
def bundledTimeout : Json → Option (String × Json)
  | .obj ms =>
      match intValue (Dict.lookup ms "timeout") with
      | some _ => (Dict.lookup ms "timeout").map fun timeout => (commandName lib ms, timeout)
      | none => none
  | _ => none

/-- `bundled_timeouts` -/
def bundledTimeouts (bundledList : List Json) : Dict String Json :=
  Dict.ofPairs (bundledList.flatMap fun entry => (entryHooks entry).filterMap (bundledTimeout lib))

/-- What `_migrate_legacy_timeouts` makes of one hook; `kept` is whether the file of its command was
kept. -/
def retimeHook (timeouts : Dict String Json) (kept : String → Bool) : Json → Json
  | .obj ms =>
      match intValue (Dict.lookup ms "timeout"), Dict.lookup timeouts (commandName lib ms) with
      | some timeout, some bundled =>
          if legacyTimeout timeout ∧ kept (commandName lib ms) = false then
            .obj (Dict.set ms "timeout" bundled)
          else .obj ms
      | _, _ => .obj ms
  | hook => hook

def retimeEntry (timeouts : Dict String Json) (kept : String → Bool) : Json → Json
  | .obj ms =>
      match Dict.lookup ms "hooks" with
      | some (.arr hooks) =>
          .obj (Dict.set ms "hooks" (.arr (hooks.map (retimeHook lib timeouts kept))))
      | _ => .obj ms
  | entry => entry

/-- `_migrate_legacy_timeouts` -/
def migrateLegacyTimeouts (kept : String → Bool) (existingList bundledList : List Json) :
    List Json :=
  existingList.map (retimeEntry lib (bundledTimeouts lib bundledList) kept)

/-- The loop that adds the entries that are not known. -/
@[grind =] def addMissing : List Json → List Json → List String → List Json
  | [], existingList, _ => existingList
  | entry :: rest, existingList, known =>
      let identity := hookEntryIdentity lib entry
      if identity ∉ known then addMissing rest (existingList ++ [entry]) (known ++ [identity])
      else addMissing rest existingList known

/-- One turn of the loop over the bundled events. -/
def mergeEvent (kept : String → Bool) : Option Json → Json → Json
  | some (.arr existingList), .arr hookList =>
      let existingList := migrateLegacyTimeouts lib kept existingList hookList
      .arr (addMissing lib hookList existingList (existingList.map (hookEntryIdentity lib)))
  | some (.arr existingList), _ => .arr existingList
  | _, hookList => hookList

def mergeHooks (kept : String → Bool) (existingHooks bundledHooks : Dict String Json) :
    Dict String Json :=
  bundledHooks.foldl
    (fun hooks m => Dict.set hooks m.1 (mergeEvent lib kept (Dict.lookup hooks m.1) m.2))
    existingHooks

def mergeEnv (existingEnv bundledEnv : Dict String Json) : Dict String Json :=
  bundledEnv.foldl (fun env m => (Dict.setDefault env m.1 m.2).2) existingEnv

/-- `document.get(key, {})`, where that is an object. -/
def subObject (document : Dict String Json) (key : String) : Option (Dict String Json) :=
  match (Dict.lookup document key).getD (.obj []) with
  | .obj ms => some ms
  | _ => none

/-- One part of the document, merged where it is an object on both sides. -/
def mergePart (key : String) (merge : Dict String Json → Dict String Json → Dict String Json)
    (existing bundled : Dict String Json) : Dict String Json :=
  match subObject existing key, subObject bundled key with
  | some old, some new => Dict.set existing key (.obj (merge old new))
  | _, _ => existing

/-- `_merge_settings_json`, its env and hooks. -/
def mergeSettings (kept : String → Bool) (existing bundled : Dict String Json) :
    Dict String Json :=
  mergePart "hooks" (mergeHooks lib kept) (mergePart "env" mergeEnv existing bundled) bundled

end

end TrwMcp.Bootstrap
