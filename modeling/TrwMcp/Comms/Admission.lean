import TrwMcp.Comms.Messages

/-!
# Admission of a message

The envelope of a send, the keys of a scoped notify, and the one decision that admits a row: an
exact retry returns the row it finds, anything else under its key is a conflict, and a new row
passes the limits of the group. A notify is that decision for each member whose declared paths the
scope reaches.
-/

namespace TrwMcp.Comms

open Handoff Lib

/-! ## Text -/

/-- `text.strip()` leaves nothing. -/
def isBlank (text : String) : Bool := text.toList.all Regex.isSpace

def isHex (c : Char) : Bool := c.isDigit || ('a' ≤ c && c ≤ 'f')

/-- `[0-9a-f]{n}` -/
def isHexText (n : Nat) (text : String) : Bool :=
  decide (text.toList.length = n) && text.toList.all isHex

def isMemberStart (c : Char) : Bool := c.isAlphanum

def isMemberChar (c : Char) : Bool := c.isAlphanum || c == '.' || c == '_' || c == '-'

/-- `MEMBER_ID` -/
def isMemberId (text : String) : Bool :=
  match text.toList with
  | [] => false
  | c :: cs => isMemberStart c && cs.all isMemberChar && decide (cs.length ≤ 63)

/-- `has_control_characters` -/
def hasControlCharacters (value : String) : Bool :=
  value.toList.any fun c => c.toNat < 0x20 || (0x7f ≤ c.toNat && c.toNat ≤ 0x9f)

/-! ## Scopes and shard keys -/

/-- `SHARD` -/
def shard : Char := Char.ofNat 0x1f

/-- The two digests and the member of a derived key. -/
def shardParts (value : String) : Option (String × String × String) := do
  let rest ← expect 'n' (← expect shard value.toList)
  let key := String.ofList (rest.take 32)
  let rest ← expect shard (rest.drop 32)
  let scope := String.ofList (rest.take 16)
  let member := String.ofList (← expect shard (rest.drop 16))
  guard (isHexText 32 key ∧ isHexText 16 scope ∧ isMemberId member)
  return (key, scope, member)

/-- `is_shard_key` -/
def isShardKey (value : String) : Bool := (shardParts value).isSome

/-- `scope_digest_of` -/
def scopeDigestOf (key : String) : Option String := (shardParts key).map (·.2.1)

section

variable (lib : Stdlib)

/-- `_digest` of the scope module. -/
def textDigest (value : String) (size : Nat) : String :=
  String.ofList ((lib.sha256 value.toUTF8).toList.take size)

/-- `shard_prefix` -/
def shardPrefix (requestKey : String) : String :=
  String.ofList [shard, 'n'] ++ textDigest lib requestKey 32 ++ String.ofList [shard]

/-- `shard_key` -/
def shardKey (requestKey scope memberId : String) : String :=
  shardPrefix lib requestKey ++ textDigest lib scope 16 ++ String.ofList [shard] ++ memberId

/-- `while "//" in text: text = text.replace("//", "/")` -/
@[grind =] def collapseSlashes : List Char → List Char
  | '/' :: '/' :: cs => collapseSlashes ('/' :: cs)
  | c :: cs => c :: collapseSlashes cs
  | [] => []

/-- `while text.startswith("./"): text = text[2:]` -/
@[grind =] def dropDotSlash : List Char → List Char
  | '.' :: '/' :: cs => dropDotSlash cs
  | cs => cs

/-- `text.rstrip("/")` -/
def rstripSlash (cs : List Char) : List Char := (cs.reverse.dropWhile (· == '/')).reverse

/-- `_DRIVE` -/
def startsWithDrive : List Char → Bool
  | c :: ':' :: _ => c.isAlpha
  | _ => false

def invalidScope : Fault := .refused "invalid_scope"

/-- `parse` of the scope module. -/
def parseScope (raw : String) (maxBytes : Nat) : Mail String := do
  if raw = "" then throw invalidScope
  let text := lib.nfc raw
  if hasControlCharacters text ∨ text.utf8ByteSize > maxBytes then throw invalidScope
  let cs := text.toList
  if cs.any fun c => ['*', '?', '[', ']', '\\'].contains c then throw invalidScope
  if startsWithDrive cs || cs.head? == some '/' then throw invalidScope
  let cs := rstripSlash (collapseSlashes (dropDotSlash cs))
  if cs.splitOn '/' |>.any fun seg => [[], ['.'], ['.', '.']].contains seg then throw invalidScope
  return String.ofList cs

/-- `declaration_covers` -/
def declarationCovers (glob path : String) : Bool :=
  lib.fnmatchcase path glob || (rstripSlash glob.toList ++ ['/']).isPrefixOf path.toList

/-- `declared.strip()` -/
def strip (text : String) : String :=
  String.ofList ((text.toList.dropWhile Regex.isSpace).reverse.dropWhile Regex.isSpace).reverse

/-- `intersects` -/
def intersects (scope declared : String) : Bool :=
  let pattern := strip declared
  pattern ≠ "" && (declarationCovers lib pattern scope ||
    (scope ++ "/").toList.isPrefixOf pattern.toList)

/-! ## Envelopes -/

structure Envelope where
  recipientMemberId : String
  requestKey : String
  body : String
  kind : String
  deliveryClass : String
  /-- set only by a scoped notify, which derives the key itself -/
  derivedKey : Bool := false

/-- `KINDS` -/
def kinds : List String := ["request", "reply", "status"]

/-- `DELIVERY_CLASSES` -/
def deliveryClasses : List String := ["on_demand", "interrupt", "on_idle"]

/-- `Envelope.validate`. Every string here encodes to UTF-8. -/
def Envelope.validate (e : Envelope) : Mail Unit := do
  if !isMemberId e.recipientMemberId then throw (.refused "invalid_recipient")
  if !(kinds.contains e.kind && deliveryClasses.contains e.deliveryClass) then
    throw (.refused "invalid_message_enum")
  if e.requestKey.utf8ByteSize < 1 ∨ 128 < e.requestKey.utf8ByteSize ∨ isBlank e.requestKey then
    throw (.refused "invalid_request_key")
  if isBlank e.body then throw (.refused "invalid_message_body")
  if e.derivedKey then
    if !isShardKey e.requestKey then throw (.refused "invalid_request_key")
  else if hasControlCharacters e.requestKey then throw (.refused "invalid_request_key")

/-- `canonical_bytes` of a list of strings. -/
def canonicalBytes (payload : List String) : ByteArray :=
  (String.ofList ('[' :: (joinComma (payload.map jsonString) ++ [']']))).toUTF8

/-- `Envelope.canonical_sha256` -/
def Envelope.canonicalSha256 (e : Envelope) : String :=
  lib.sha256 (canonicalBytes [e.recipientMemberId, e.kind, e.deliveryClass, e.body])

/-! ## The decision -/

/-- A member, as the caller's manifest records it. -/
structure RecipientSnapshot where
  memberId : String
  eligible : Bool
  runPath : Option String
  pinKey : Option String
  ownedPaths : List String
  terminal : Bool

structure CallerSnapshot where
  binding : CallerBinding
  allTerminal : Bool
  recipients : List RecipientSnapshot

variable {T : Type} [Clock T]

/-- The row of an exact key, with its message id. -/
def existingRow (db : Db T) (groupId sender requestKey : String) : Option (Row T) :=
  db.admissions.find? fun m => m.2.groupId == groupId && m.2.senderMemberId == sender &&
    m.2.requestKey == requestKey

/-- The rows of a sender whose key starts with the shards' prefix of `requestKey`. -/
def retainedRows (db : Db T) (groupId sender requestKey : String) : List (Admission T) :=
  (rowsIn db groupId).filter fun a => a.senderMemberId == sender &&
    (shardPrefix lib requestKey).toList.isPrefixOf a.requestKey.toList

/-- `_assert_live_recipient` -/
def assertLiveRecipient (db : Db T) (groupId : String) (recipient : RecipientSnapshot) (now : T) :
    Mail Unit :=
  match Dict.lookup db.endpoints (groupId, recipient.memberId) with
  | none => throw (.refused "recipient_unavailable")
  | some endpoint =>
      if endpoint.leaseExpiresAt ≤ now then throw (.refused "recipient_unavailable")
      else if recipient.runPath ≠ some endpoint.runPath ∨
          recipient.pinKey ≠ some endpoint.sessionId then
        throw (.refused "recipient_binding_mismatch")
      else pure ()

/-- What one transaction draws from its surroundings: the ids `uuid4` gives each new row and event,
the caller's traceparent, and the regular files under the project root by the text that names
them, with their project-relative path. -/
structure Surroundings where
  messageId : String → String
  eventId : String → Nat → String
  traceparent : Option String
  file : String → Option (String × ByteArray)

/-- The row `admit` inserts. -/
def Envelope.row (e : Envelope) (binding : CallerBinding) (traceparent : Option String) (now : T)
    (ttl : Nat) : Admission T where
  groupId := binding.groupId
  senderMemberId := binding.memberId
  requestKey := e.requestKey
  recipientMemberId := e.recipientMemberId
  kind := e.kind
  deliveryClass := e.deliveryClass
  body := e.body
  recipientIncarnation := neverPrepared
  admittedAt := now
  state := .pending
  expiresAt := Clock.plus now ttl
  deliveryCount := 0
  canonicalSha256 := e.canonicalSha256 lib
  traceparent := traceparent

/-- The guards of a new row. -/
def checkAdmission (db : Db T) (snapshot : CallerSnapshot) (e : Envelope) (now : T)
    (requireLive : Bool) : Mail Unit := do
  let binding := snapshot.binding
  if !isShardKey e.requestKey &&
      !(retainedRows lib db binding.groupId binding.memberId e.requestKey).isEmpty then
    throw (.refused "idempotency_conflict")
  let group ← groupRow db binding.groupId
  if group.closed then throw (.refused "group_closed")
  if e.kind = "request" ∧ e.recipientMemberId = binding.memberId then
    throw (.refused "handoff_to_self")
  match snapshot.recipients.find? (·.memberId == e.recipientMemberId) with
  | none => throw (.refused "recipient_not_eligible")
  | some recipient =>
      if !recipient.eligible then throw (.refused "recipient_not_eligible")
      if requireLive then assertLiveRecipient db binding.groupId recipient now
      checkLimits db binding.groupId group binding.memberId recipient.memberId e.body now

/-- `admit`: the row the message is in, which is an earlier one for an exact retry. -/
def admitMessage (env : Surroundings) (db : Db T) (snapshot : CallerSnapshot) (e : Envelope) (now : T)
    (ttl : Nat) (requireLive : Bool) : Mail (Db T × Row T) := do
  e.validate
  let binding := snapshot.binding
  match existingRow db binding.groupId binding.memberId e.requestKey with
  | some existing =>
      if e.canonicalSha256 lib = existing.2.canonicalSha256 then return (db, existing)
      else throw (.refused "idempotency_conflict")
  | none =>
      checkAdmission lib db snapshot e now requireLive
      let messageId := env.messageId e.recipientMemberId
      let row := e.row lib binding env.traceparent now ttl
      return (← insertAdmission db messageId row, (messageId, row))

/-! ## Scoped notify -/

/-- `candidates`: the members whose declared paths the scope reaches, by id. -/
def candidates (snapshot : CallerSnapshot) (scope : String) : List RecipientSnapshot :=
  (snapshot.recipients.filter fun peer => peer.memberId != snapshot.binding.memberId &&
    peer.ownedPaths.any (intersects lib scope)).insertionSort fun p q => p.memberId ≤ q.memberId

/-- `reconcile_retry`: the members an earlier notify under this key reached. -/
def reconcileRetry (db : Db T) (binding : CallerBinding) (requestKey scope : String)
    (reachable : List RecipientSnapshot) : Mail (List String) := do
  if (existingRow db binding.groupId binding.memberId requestKey).isSome then
    throw (.refused "idempotency_conflict")
  let rows := retainedRows lib db binding.groupId binding.memberId requestKey
  if rows.any fun row => scopeDigestOf row.requestKey ≠ some (textDigest lib scope 16) then
    throw (.refused "idempotency_conflict")
  let retained := rows.map (·.recipientMemberId)
  if retained.any fun member => !(reachable.map (·.memberId)).contains member then
    throw (.refused "idempotency_conflict")
  return retained

/-- `SKIPPABLE` -/
def skippable (reason : String) : Bool :=
  ["recipient_not_eligible", "recipient_unavailable", "recipient_binding_mismatch"].contains reason

/-- The text and class of a notify. -/
structure Notice where
  requestKey : String
  body : String
  kind : String
  deliveryClass : String

/-- `notify`: one bounded fan-out, or none of it. The members that were skipped are not an error,
unless nobody was reached. -/
def notify (env : Surroundings) (db : Db T) (snapshot : CallerSnapshot) (scope : String)
    (notice : Notice) (now : T) (maxRecipients ttl : Nat) : Mail (Db T × List (Row T)) := do
  if notice.requestKey.utf8ByteSize < 1 ∨ 128 < notice.requestKey.utf8ByteSize ∨
      hasControlCharacters notice.requestKey then
    throw (.refused "invalid_request_key")
  let reachable := candidates lib snapshot scope
  if reachable.isEmpty then throw (.refused "scope_matches_no_peer")
  if reachable.length > maxRecipients then throw (.refused "scope_too_broad")
  let retained ← reconcileRetry lib db snapshot.binding notice.requestKey scope reachable
  let frozen := if retained.isEmpty then reachable.map (·.memberId) else retained
  let reached ← (reachable.filter fun peer => frozen.contains peer.memberId).foldlM
    (fun (acc : Db T × List (Row T)) peer =>
      let e : Envelope := {
        recipientMemberId := peer.memberId
        requestKey := shardKey lib notice.requestKey scope peer.memberId
        body := notice.body, kind := notice.kind, deliveryClass := notice.deliveryClass
        derivedKey := true }
      match admitMessage lib env acc.1 snapshot e now ttl true with
      | .ok (db, row) => pure (db, acc.2 ++ [row])
      | .error (.refused reason) => if skippable reason then pure acc else throw (.refused reason)
      | .error fault => throw fault) (db, [])
  if reached.2.isEmpty then throw (.refused "recipient_unavailable")
  return reached

end

end TrwMcp.Comms
