import TrwMcp.Comms.Admission

/-!
# The AHR event store

The one writer of the AHR event log. Every event is built here, stepped through the replay over the
handoff's stored log, and appended with its canonical bytes; the handoff rides on its `offered` row
and each read-back on its `read_back` row. A refusal rolls the whole action back.

A Python dict compares and serializes without regard to the order of its members. A document this
store holds is listed in the order its canonical bytes have (`Json.canon`), so that reading the
bytes back gives the same value and not only an equal one.
-/

namespace TrwMcp.Comms

open Handoff Lib

/-- `AHR_SPEC` -/
def ahrSpec : String := "1.0-rc.2"

/-- `STORE_PRINCIPAL`: the actor of `expired`. -/
def storePrincipal : Json := .obj [("id", .str "trw-comms-store"), ("kind", .str "service")]

/-- `_READBACK_RULES` -/
def readbackRules : List String := ["R-LC-11 ", "R-RB-4 "]

/-- `needle in text` -/
def containsText (needle text : String) : Bool :=
  text.toList.tails.any fun t => needle.toList.isPrefixOf t

/-- `_refusal`: the reason a violation is refused with. -/
def refusalOf (errs : List String) (action : String) : Fault :=
  let first := errs.head?.getD ""
  if action = "accepted" ∧ readbackRules.any fun r => r.toList.isPrefixOf first.toList then
    .refused "ahr_readback_required"
  else if containsText ": readback " first || "handoff: ".toList.isPrefixOf first.toList then
    .refused "ahr_invalid"
  else .refused "ahr_lifecycle_refused"

/-- `text.removeprefix(prefix)` -/
def removePrefix (lead text : String) : String :=
  if lead.toList.isPrefixOf text.toList then String.ofList (text.toList.drop lead.toList.length)
  else text

section

variable (lib : Stdlib)

/-- `pointer`: the body of the carrier message. -/
def pointer (record : Json) : Py String := do
  return "ahr:1 " ++ formatValue lib (some (← record.item "handoff_id")) ++ " " ++
    (← digest lib record)

/-! ## Local files -/

def notLocal : Fault := .refused "ahr_ref_not_local"

/-- `^[A-Za-z][A-Za-z0-9+.-]*:` -/
def hasScheme (text : String) : Bool :=
  match text.toList with
  | [] => false
  | c :: cs => c.isAlpha &&
      (cs.dropWhile fun c => c.isAlphanum || c == '+' || c == '.' || c == '-').head? == some ':'

/-- `local_file`: a regular file under the project root, as its relative path and its bytes. -/
def localFile (env : Surroundings) (text : String) : Mail (String × ByteArray) :=
  let raw := removePrefix "file:" (strip text)
  if isBlank text then throw (.refused "invalid_inbox_arguments")
  else if hasScheme raw then throw notLocal
  else match env.file raw with
    | some found => pure found
    | none => throw notLocal

/-- `_hashed`: a local `ref` with the digest of the file; a file too large for a record keeps no
bytes. -/
def hashed (env : Surroundings) (text : String) : Mail (String × ByteArray × String) := do
  let (relative, raw) ← localFile env text
  let sample := if raw.size ≤ maxInputBytes then raw else ByteArray.empty
  return (relative, sample, "sha256:" ++ lib.sha256 raw)

/-- `loads`, with its two input errors refused. -/
def loadsOrRefuse (raw : ByteArray) : Mail Json :=
  match loads lib raw with
  | .error (.ahrInputError _) | .error (.ahrParseError _) => throw (.refused "ahr_invalid")
  | result => uncaught result

/-- `_load_record`: one local document of this kind. -/
def loadRecord (env : Surroundings) (text kind : String) : Mail Json := do
  let (_, raw) ← localFile env text
  let doc ← loadsOrRefuse lib raw
  if doc.get? "type" ≠ some (.str kind) then throw (.refused "ahr_invalid")
  return doc.canon

/-! ## The stored log -/

/-- `dict(json.loads(raw))` -/
def loadsDict (raw : ByteArray) : Py Json := do
  match ← jsonLoads lib raw with
  | .obj ms => return .obj ms
  | _ => throw .typeError

section

variable {T : Type}

/-- The `offered` row of a handoff. -/
def offeredRow (db : Db T) (handoffId : String) : Option AhrRow :=
  db.ahrEvents.find? fun r => r.handoffId == handoffId && r.seq == 1

/-- `handoff_of`: the handoff a carrier message offered. -/
def handoffOf (db : Db T) (messageId : String) : Option String :=
  (db.ahrEvents.find? fun r => r.messageId == messageId && r.seq == 1).map (·.handoffId)

/-- `_offered_record` -/
def offeredRecord (db : Db T) (handoffId : String) : Py (Option Json) :=
  match (offeredRow db handoffId).bind (·.record) with
  | some raw => do return some (← loadsDict lib raw)
  | none => pure none

/-- `_stored_target`, given how to find the offered record of a handoff. -/
def targetFrom (offered : String → Py (Option Json)) (ev : Json) (record : Option ByteArray) :
    Py (Option Target) := do
  let ref ← ev.get "ref"
  match ref.filter (· != .null) with
  | none => return none
  | some ref =>
      let event ← ev.item "event"
      match if [Json.str "read_back", .str "reported"].contains event then record else none with
      | some raw =>
          let stored ← loadsDict lib raw
          return some ⟨.record stored, ← digest lib stored⟩
      | none =>
          if event = .str "superseded" then
            let uri := formatValue lib (some (← ref.item "uri"))
            match ← offered (removePrefix "trw:ahr/" uri) with
            | some successor => return some ⟨.record successor, ← digest lib successor⟩
            | none => return none
          else
            return some ⟨.bytes ByteArray.empty, formatValue lib (some (← ref.item "digest"))⟩

/-- `_stored_target`: what a stored event refers to, from stored bytes only. -/
def storedTarget (db : Db T) (ev : Json) (record : Option ByteArray) : Py (Option Target) :=
  targetFrom lib (offeredRecord lib db) ev record

/-- The rows of a handoff, by `seq`. -/
def eventRows (db : Db T) (handoffId : String) : List AhrRow :=
  (db.ahrEvents.filter fun r => r.handoffId == handoffId).insertionSort fun r s => r.seq ≤ s.seq

def doesNotReplay : Fault := .corrupt "a stored AHR log does not replay"

/-- Step the stored rows through the replay. -/
@[grind =] def replayRows (db : Db T) : List AhrRow → AhrLog → Mail AhrLog
  | [], log => pure log
  | row :: rows, log => do
      let ev ← uncaught (loadsDict lib row.eventDoc)
      let target ← uncaught (storedTarget lib db ev row.record)
      match ← uncaught (step lib log ev target) with
      | (log, []) => replayRows db rows log
      | (_, _ :: _) => throw doesNotReplay

/-- `rebuild` -/
def rebuild (db : Db T) (handoffId : String) : Mail AhrLog := do
  let rows := eventRows db handoffId
  match rows.head?.bind (·.record) with
  | none => throw (.corrupt "an AHR log without its offered record")
  | some raw =>
      match ← uncaught (do start lib (← loadsDict lib raw)) with
      | (some log, []) => replayRows lib db rows log
      | _ => throw doesNotReplay

/-- `_logged` -/
def logged (db : Db T) (messageId : String) : Mail AhrLog :=
  match handoffOf db messageId with
  | none => throw (.refused "ahr_not_offered")
  | some handoffId => rebuild lib db handoffId

/-- `_receiver` -/
def receiverOf (log : AhrLog) : Py Json := do
  let to_ ← log.handoff.item "to"
  return .obj [("id", ← to_.item "id"), ("kind", ← to_.item "kind")]

/-- The digest of the event the log holds last, if it holds one. -/
def chainFields (log : AhrLog) : Py (List (String × Json)) :=
  match log.prevEvent with
  | some prev => do return [("prev_event_digest", .str (← digest lib prev))]
  | none => pure []

variable [Clock T]

/-- The event `_append` builds. -/
def newEvent (env : Surroundings) (log : AhrLog) (event : String) (actor : Json) (now : T)
    (fields : List (String × Json)) : Py Json := do
  let time ← iso now
  let handoffId ← log.handoff.strItem "handoff_id"
  let chain ← chainFields lib log
  let effective := if event = "accepted" then [("effective_at", Json.str time)] else []
  return (Json.obj ([("ahr", .str ahrSpec), ("type", .str "event"),
    ("event_id", .str (env.eventId handoffId (log.count + 1))), ("handoff_id", .str handoffId),
    ("seq", .int (log.count + 1)), ("event", .str event), ("actor", actor), ("at", .str time),
    ("record_digest", .str log.recordDigest)] ++ fields ++ chain ++ effective)).canon

/-- The row of an event. -/
def eventRow (log : AhrLog) (messageId event : String) (actor ev : Json) (record : Option ByteArray) :
    Py AhrRow := do
  return {
    handoffId := ← ev.strItem "handoff_id"
    seq := log.count + 1
    messageId
    eventId := ← ev.strItem "event_id"
    event
    actor := ← actor.strItem "id"
    at_ := ← ev.strItem "at"
    subject := ← log.handoff.strItem "subject"
    eventDigest := ← digest lib ev
    eventDoc := ← jcs ev
    record }

/-- `_append`: build, step and append one event; any violation is refused. -/
def append (env : Surroundings) (db : Db T) (log : AhrLog) (messageId event : String) (actor : Json)
    (now : T) (target : Option Target) (record : Option ByteArray) (fields : List (String × Json)) :
    Mail (Db T) := do
  let ev ← uncaught (newEvent lib env log event actor now fields)
  match ← uncaught (step lib log ev target) with
  | (_, e :: errs) => throw (refusalOf (e :: errs) event)
  | (log', []) => do
      let row ← uncaught (eventRow lib log messageId event actor ev record)
      let db ← insertAhrEvent db row
      return { db with written := Dict.set db.written row.handoffId log' }

/-! ## Offers -/

/-- The record, sealed if it was not. -/
def sealUnsealed (record : Json) : Mail Json :=
  if Json.truthy? (record.get? "integrity") then pure record
  else do return (← uncaught (sealDoc lib record)).canon

/-- `read_offer`: load, seal if unsealed, and check one handoff this store can hold. -/
def readOffer (env : Surroundings) (path sender recipient : String) : Mail Json := do
  let record ← sealUnsealed lib (← loadRecord lib env path "handoff")
  let (log, _) ← uncaught (start lib record)
  if log.isNone then throw (.refused "ahr_invalid")
  let to_ ← uncaught (record.item "to")
  if (← uncaught (to_.get "kind")) = some (.str "unaddressed") then
    throw (.refused "ahr_unaddressed_not_supported")
  if (← uncaught (record.item "tier")) = .str "critical" then
    throw (.refused "ahr_tier_not_supported")
  let from_ ← uncaught (record.item "from")
  if (← uncaught (from_.item "id")) ≠ .str sender ∨
      (← uncaught (to_.get "id")) ≠ some (.str recipient) then
    throw (.refused "ahr_party_mismatch")
  return record

/-- `_local_handoff`: the handoff is offered in this group. -/
def localHandoff (db : Db T) (groupId handoffId : String) : Bool :=
  match offeredRow db handoffId with
  | some row => (Dict.lookup db.admissions row.messageId).any fun a => a.groupId == groupId
  | none => false

/-- `handoff_carrier` -/
def handoffCarrier (db : Db T) (handoffId : String) : Mail String :=
  match offeredRow db handoffId with
  | some row => pure row.messageId
  | none => throw (.raised .typeError)

/-- A reference to an AHR record. -/
def recordRef (uri digest : String) : Json :=
  .obj [("uri", .str uri), ("digest", .str digest), ("media_type", .str ahrMedia)]

/-- The principals a record is superseded by once it is no longer only offered. -/
def ownersOf (log : AhrLog) : Py (List String) :=
  if log.state = some .accepted ∨ log.state = some .reported then pure log.receiver.toList
  else do return (← senderOf log.handoff) :: log.receiver.toList

/-- The new record may not supersede this predecessor. -/
def mayNotSupersede (log : AhrLog) (record : Json) (listedDigest : String) : Py Bool := do
  let owners ← ownersOf log
  if !owners.contains (← (← record.item "from").strItem "id") then return true
  if (← record.item "subject") ≠ (← log.handoff.item "subject") then return true
  if (← tierRank (← record.strItem "tier")) < (← tierRank (← log.handoff.strItem "tier")) then
    return true
  return listedDigest != log.recordDigest

/-- `_supersede`: an offered predecessor gets `superseded`; any other only loses currency, and the
new record must come from its current owner. -/
def supersede (env : Surroundings) (db : Db T) (log : AhrLog) (record : Json) (listedDigest : String)
    (now : T) : Mail (Db T) := do
  if log.state = some .offered then
    let recordDigest ← uncaught (digest lib record)
    let uri := "trw:ahr/" ++ formatValue lib (some (← uncaught (record.item "handoff_id")))
    let messageId ← handoffCarrier db (← uncaught (log.handoff.strItem "handoff_id"))
    let sender ← uncaught (log.handoff.item "from")
    append lib env db log messageId "superseded" sender now (some ⟨.record record, recordDigest⟩)
      none [("ref", recordRef uri recordDigest)]
  else
    if ← uncaught (mayNotSupersede log record listedDigest) then
      throw (.refused "ahr_lifecycle_refused")
    return db

/-- The record's `expires_at` lies past the carrier's. -/
def exceedsTtl (db : Db T) (messageId : String) (record : Json) : Py Bool :=
  match (record.get? "expires_at").filter (· != .null), Dict.lookup db.admissions messageId with
  | some expires, some carrier => do
      return Clock.timestampAfter (← instant (← expires.asStr)) carrier.expiresAt
  | _, _ => pure false

/-- One entry of `supersedes`: a predecessor that is not offered here changes nothing. -/
def supersedeListed (env : Surroundings) (groupId : String) (record : Json) (now : T) (db : Db T)
    (listed : Json) : Mail (Db T) := do
  let handoffId := formatValue lib (some (← uncaught (listed.item "handoff_id")))
  if localHandoff db groupId handoffId then
    let log ← rebuild lib db handoffId
    supersede lib env db log record (formatValue lib (some (← uncaught (listed.item "digest")))) now
  else return db

/-- The stored offer is this very one. -/
def isSameOffer (row : AhrRow) (messageId : String) (record : Json) : Py Bool := do
  if row.messageId ≠ messageId then return false
  let ev ← jsonLoads lib row.eventDoc
  return decide ((← ev.item "record_digest") = .str (← digest lib record))

/-- `offer`: append `offered`, and `superseded` on each predecessor offered here. -/
def offer (env : Surroundings) (db : Db T) (groupId messageId : String) (record : Json) (now : T) :
    Mail (Db T) := do
  if ← uncaught (exceedsTtl db messageId record) then throw (.refused "ahr_expiry_exceeds_ttl")
  let handoffId ← uncaught (record.strItem "handoff_id")
  match offeredRow db handoffId with
  | some row =>
      if ← uncaught (isSameOffer lib row messageId record) then return db
      else throw (.refused "ahr_event_conflict")
  | none => do
      let listed ← uncaught (record.listGet "supersedes")
      let db ← listed.foldlM (supersedeListed lib env groupId record now) db
      match ← uncaught (start lib record) with
      | (none, _) => throw (.raised .valueError)
      | (some fresh, _) => do
          let sender ← uncaught (fresh.handoff.item "from")
          let raw ← uncaught (jcs record)
          append lib env db fresh messageId "offered" sender now none (some raw) []

/-! ## Expiry -/

/-- The states that end an offer, as `sweep_expired` and the events that end it name them. -/
def endingEvents : List String := ["accepted", "declined", "withdrawn", "superseded", "expired"]

/-- `json_extract(record, '$.expires_at')` of an offered row. -/
def expiresText (row : AhrRow) : Option String :=
  match row.record.map (loadsDict lib) with
  | some (.ok record) => ((record.get? "expires_at").filter (· != .null)).map fun v =>
      formatValue lib (some v)
  | _ => none

/-- The open offers of the group that can expire: handoff, carrier and `expires_at`. -/
def expiringOffers (db : Db T) (groupId : String) : List (String × String × String) :=
  db.ahrEvents.filterMap fun row =>
    if row.seq = 1 ∧ (Dict.lookup db.admissions row.messageId).any (fun a => a.groupId == groupId) ∧
        !(db.ahrEvents.any fun t =>
          t.handoffId == row.handoffId && endingEvents.contains t.event) then
      (expiresText lib row).map fun text => (row.handoffId, row.messageId, text)
    else none

/-- One offer of `sweep_expired`: a due one is replayed, and expired if it is still only offered. -/
def sweepOne (env : Surroundings) (now : T) (db : Db T) (offer : String × String × String) :
    Mail (Db T) := do
  let due ← uncaught (instant offer.2.2)
  if due > (← uncaught (Clock.fromTimestamp now)) then return db
  let log ← rebuild lib db offer.1
  let expires ← uncaught (expiresAt log.handoff)
  let at_ ← uncaught (Clock.fromTimestamp now)
  if log.state = some .offered ∧ expires.any (decide <| · ≤ at_) then
    append lib env db log offer.2.1 "expired" storePrincipal now none none []
  else return db

/-- `sweep_expired` -/
def sweepExpired (env : Surroundings) (db : Db T) (groupId : String) (now : T) : Mail (Db T) :=
  (expiringOffers lib db groupId).foldlM (sweepOne lib env now) db

/-! ## The receiver's and the sender's actions -/

namespace AhrEvents

/-- `read_back` -/
def readBack (env : Surroundings) (db : Db T) (messageId path : String) (now : T) :
    Mail (Db T) := do
  let log ← logged lib db messageId
  let readback ← loadRecord lib env path "readback"
  let found ← uncaught (digest lib readback)
  let actor ← uncaught (receiverOf log)
  let author ← uncaught (actor.strItem "id")
  if (Dict.lookup log.latestRb author).any fun rb => rb.digest == found then return db
  let handoffId := formatValue lib (some (← uncaught (log.handoff.item "handoff_id")))
  let name := formatValue lib (some ((readback.get? "readback_id").getD (.str "unknown")))
  let uri := "trw:ahr/" ++ handoffId ++ "/readback/" ++ name
  let raw ← uncaught (jcs readback)
  append lib env db log messageId "read_back" actor now (some ⟨.record readback, found⟩) (some raw)
    [("ref", recordRef uri found)]

/-- `accept` -/
def accept (env : Surroundings) (db : Db T) (messageId : String) (now : T) : Mail (Db T) := do
  let log ← logged lib db messageId
  let actor ← uncaught (receiverOf log)
  let id ← uncaught (actor.strItem "id")
  if (log.state = some .accepted ∨ log.state = some .reported ∨ log.state = some .completed) ∧
      log.receiver = some id then
    return db
  append lib env db log messageId "accepted" actor now none none []

/-- `decline` -/
def decline (env : Surroundings) (db : Db T) (messageId reason : String) (now : T) :
    Mail (Db T) := do
  let log ← logged lib db messageId
  if log.state = some .declined then return db
  let actor ← uncaught (receiverOf log)
  append lib env db log messageId "declined" actor now none none [("reason", .str reason)]

/-- `withdraw` -/
def withdraw (env : Surroundings) (db : Db T) (messageId reason : String) (now : T) :
    Mail (Db T) := do
  let log ← logged lib db messageId
  if log.state = some .withdrawn then return db
  let sender ← uncaught (log.handoff.item "from")
  append lib env db log messageId "withdrawn" sender now none none [("reason", .str reason)]

/-- A reference to a local file. -/
def fileRef (relative digest : String) : Json :=
  .obj [("uri", .str ("file:" ++ relative)), ("digest", .str digest)]

/-- The last stored event is this very answer. -/
def isLastAnswer (log : AhrLog) (ref : Json) : Py Bool :=
  match log.prevEvent with
  | some last => do
      if (← last.item "event") ≠ .str "answered" then return false
      return (last.get? "ref").any (Json.eqv ref)
  | none => pure false

/-- `answer` -/
def answer (env : Surroundings) (db : Db T) (messageId path : String) (now : T) : Mail (Db T) := do
  let log ← logged lib db messageId
  let (relative, sample, found) ← hashed lib env path
  let ref := fileRef relative found
  if ← uncaught (isLastAnswer log ref) then return db
  let sender ← uncaught (log.handoff.item "from")
  append lib env db log messageId "answered" sender now (some ⟨.bytes sample, found⟩) none
    [("ref", ref)]

/-- `_onward`: the AHR handoff a report's file holds. -/
def onwardOf (sample : ByteArray) : Mail (Option Json) :=
  match loads lib sample with
  | .error (.ahrInputError _) | .error (.ahrParseError _) => pure none
  | .error e => throw (.raised e)
  | .ok doc =>
      if doc.has "ahr" && decide (doc.get? "type" = some (.str "handoff")) then pure (some doc.canon)
      else pure none

/-- `_BOUND`: a path and the digest it is bound to. -/
def boundPointer (text : String) : Option (String × String) :=
  let cs := text.toList
  let cs := if cs.getLast? = some '\n' then cs.dropLast else cs
  let path := cs.take (cs.length - 72)
  let bound := String.ofList (cs.drop (cs.length - 72))
  if path ≠ [] ∧ !path.contains '\n' ∧ "#sha256:".toList.isPrefixOf bound.toList ∧
      isHexText 64 (removePrefix "#sha256:" bound) then
    some (String.ofList path, removePrefix "#" bound)
  else none

/-- `_offered_here`: the onward record is offered in this group, with these bytes. -/
def offeredHere (db : Db T) (groupId : String) (record : Json) : Py Bool := do
  let handoffId := formatValue lib (record.get? "handoff_id")
  if localHandoff db groupId handoffId then
    match ← offeredRecord lib db handoffId with
    | some offered => return decide ((← digest lib offered) = (← digest lib record))
    | none => return false
  else return false

/-- `digest` of an onward record, whose refusal is one of the record. -/
def onwardDigest (onward : Json) : Mail String :=
  match digest lib onward with
  | .error (.jcsError _) => throw (.refused "ahr_invalid")
  | result => uncaught result

/-- The onward record in a report's file; a file kept without its bytes has none. -/
def onwardIn (sample : ByteArray) : Mail (Option Json) :=
  if sample.size = 0 then pure none else onwardOf lib sample

/-- A report with a plain file, which the pointer must be bound to. -/
def reportFile (env : Surroundings) (db : Db T) (log : AhrLog) (messageId outcome relative : String)
    (sample : ByteArray) (found bound : String) (now : T) : Mail (Db T) := do
  if found ≠ bound then throw (.refused "ahr_ref_unverified")
  let actor ← uncaught (receiverOf log)
  append lib env db log messageId "reported" actor now (some ⟨.bytes sample, found⟩) none
    [("ref", fileRef relative found), ("outcome", .str outcome)]

/-- The onward record should be offered here and is not; a critical one need not be. -/
def onwardMissing (db : Db T) (groupId : String) (onward : Json) : Py Bool :=
  if onward.get? "tier" ≠ some (.str "critical") then do return !(← offeredHere lib db groupId onward)
  else pure false

/-- A report with an onward record. The pointer is bound to the file or to the record. -/
def reportOnward (env : Surroundings) (db : Db T) (log : AhrLog)
    (groupId messageId outcome relative : String) (onward : Json) (found bound : String) (now : T) :
    Mail (Db T) := do
  let recordDigest ← onwardDigest lib onward
  if bound ≠ found ∧ bound ≠ recordDigest then throw (.refused "ahr_ref_unverified")
  if ← uncaught (onwardMissing lib db groupId onward) then
    throw (.refused "ahr_onward_not_offered")
  let actor ← uncaught (receiverOf log)
  let raw ← uncaught (jcs onward)
  append lib env db log messageId "reported" actor now (some ⟨.record onward, recordDigest⟩) (some raw)
    [("ref", recordRef ("file:" ++ relative) recordDigest), ("outcome", .str outcome)]

/-- `report` -/
def report (env : Surroundings) (db : Db T) (groupId messageId nextRead outcome : String) (now : T) :
    Mail (Db T) := do
  let log ← logged lib db messageId
  if log.state = some .reported ∨ log.state = some .completed then return db
  match boundPointer nextRead with
  | none => throw (.refused "ahr_ref_unverified")
  | some (path, bound) => do
      let (relative, sample, found) ← hashed lib env path
      match ← onwardIn lib sample with
      | none => reportFile lib env db log messageId outcome relative sample found bound now
      | some onward =>
          reportOnward lib env db log groupId messageId outcome relative onward found bound now

/-- `complete` -/
def complete (env : Surroundings) (db : Db T) (messageId : String) (now : T) : Mail (Db T) := do
  let log ← logged lib db messageId
  if log.state = some .completed then return db
  let sender ← uncaught (log.handoff.item "from")
  append lib env db log messageId "completed" sender now none none []

end AhrEvents

end

end

end TrwMcp.Comms
