import TrwMcp.Handoff.Validate

/-!
# One handoff's event log

The AHR lifecycle replay: `AhrLog` is what the replay remembers of one handoff's events, `step`
admits the next event and returns its violations. A violation does not stop the bookkeeping: the
log comes back as far as the source had updated it. An exception leaves no log.

The resolved `ref` is an argument: the store reads its own rows, a test reads files.
-/

namespace TrwMcp.Comms

open Handoff Lib

/-- The states of a handoff; no event yet is `none` in the log. -/
inductive LogState where
  | offered | accepted | reported | completed | declined | withdrawn | superseded | expired
  deriving DecidableEq, Repr

namespace LogState

/-- `TERMINAL` -/
def isTerminal : LogState → Bool
  | declined | completed | withdrawn | superseded | expired => true
  | offered | accepted | reported => false

def text : LogState → String
  | offered => "offered"
  | accepted => "accepted"
  | reported => "reported"
  | completed => "completed"
  | declined => "declined"
  | withdrawn => "withdrawn"
  | superseded => "superseded"
  | expired => "expired"

end LogState

def ahrMedia : String := "application/vnd.ahr+json"

/-- `TIER_RANK` -/
def tierRank (tier : String) : Py Nat :=
  match tier with
  | "minimal" => pure 0
  | "standard" => pure 1
  | "critical" => pure 2
  | _ => throw (.keyError tier)

/-- What a `ref` resolves to: an AHR record, or bytes. -/
inductive Resolved where
  | record (doc : Json)
  | bytes (raw : ByteArray)

/-- The dict a `ref` resolves to, if it is one. -/
def Resolved.dict? : Resolved → Option Json
  | record doc => if doc.isDict then some doc else none
  | bytes _ => none

/-- A resolved `ref`: the target and its digest. -/
structure Target where
  resolved : Resolved
  digest : String

/-- A stored read-back: its digest, the record, when it was stored. -/
structure ReadBack where
  digest : String
  doc : Json
  storedAt : Instant
  deriving DecidableEq

/-- The replay state of one handoff. -/
structure AhrLog where
  handoff : Json
  recordDigest : String
  state : Option LogState := none
  receiver : Option String := none
  prevAt : Option Instant := none
  prevEvent : Option Json := none
  /-- author ↦ the author's latest read-back -/
  latestRb : Dict String ReadBack := []
  /-- read-back digest ↦ latest verification -/
  verdict : Dict String Json := []
  verifiers : List String := []
  anyFail : Bool := false
  /-- event id ↦ actor -/
  seenIds : Dict String String := []
  /-- read-back id ↦ digest -/
  rbIds : Dict String String := []
  seenRbDigests : List String := []
  count : Nat := 0
  deriving DecidableEq

/-- The log and the violations of one event. -/
abbrev Verdict := AhrLog × List String

section

variable (lib : Stdlib)

/-- `_looks_ahr` -/
def looksAhr (raw : ByteArray) : Bool :=
  match jsonLoads lib raw with
  | .ok (.obj ms) => (Json.obj ms).has "ahr" && ((Json.obj ms).get? "type").any fun t =>
      [Json.str "handoff", .str "readback", .str "event"].contains t
  | _ => false

/-- `f"{value}"` -/
def formatValue : Option Json → String
  | none | some .null => "None"
  | some (.str s) => s
  | some v => lib.repr v

/-! ## What the handoff says -/

/-- A string field that may be missing or null. -/
def optStr : Option Json → Py (Option String)
  | none | some .null => pure none
  | some v => do return some (← v.asStr)

/-- `handoff["to"].get("kind") != "unaddressed"` -/
def isAddressed (handoff : Json) : Py Bool := do
  return decide ((← (← handoff.item "to").get "kind") ≠ some (.str "unaddressed"))

def senderOf (handoff : Json) : Py String := do (← handoff.item "from").strItem "id"

/-- The principal that may complete: the sender of an addressed record, else `to.completer`. -/
def completerOf (handoff : Json) : Py (Option String) := do
  if ← isAddressed handoff then return some (← senderOf handoff)
  match ← (← handoff.item "to").get "completer" with
  | some (.obj ms) => return some (← (Json.obj ms).strItem "id")
  | _ => return none

def expiresAt (handoff : Json) : Py (Option Instant) := do
  match ← handoff.get "expires_at" with
  | some (.str value) => return some (← instant value)
  | _ => return none

/-- `handoff.get("readback", {}).get("verifier", {})` -/
def verifierOf (handoff : Json) : Py Json := do (← handoff.getDict "readback").getDict "verifier"

/-- `kinds`: the kind this handoff records for each principal. -/
def recordedKinds (handoff : Json) : Py (Dict String Json) := do
  let sender ← handoff.item "from"
  let recipient ← handoff.item "to"
  let kinds := [(← sender.strItem "id", ← sender.item "kind")]
  let kinds ←
    if Json.truthy? (← recipient.get "id") then
      do pure (Dict.set kinds (← recipient.strItem "id") (← recipient.item "kind"))
    else pure kinds
  let completer ← recipient.get "completer"
  let kinds ←
    match completer.filter Json.truthy with
    | some c => do pure (Dict.setDefault kinds (← c.strItem "id") (← c.item "kind")).2
    | none => pure kinds
  let verifier ← (← handoff.getDict "readback").get "verifier"
  match verifier.filter Json.truthy with
  | some v => return Dict.set kinds (← v.strItem "id") (← v.item "kind")
  | none => return kinds

/-! ## One event -/

/-- The locals of one event: the event, what its `ref` resolved to, and what the handoff says. -/
structure Step where
  ev : Json
  kind : String
  resolved : Option Resolved
  actor : String
  actorKind : Json
  at_ : Instant
  tag : String
  handoff : Json
  tier : String
  sender : String
  addressed : Bool
  completer : Option String
  verifierId : Option String
  verifierKind : Option Json
  expires : Option Instant
  mayReceive : Bool

/-- The text of a violation. -/
def Step.fail (s : Step) (rule msg : String) : String := rule ++ " " ++ s.tag ++ ": " ++ msg

/-- The dict the event's `ref` resolved to. -/
def Step.record? (s : Step) : Option Json := s.resolved.bind Resolved.dict?

/-- `any(r["result"] == result for r in rb["reverified"])` -/
def anyResult (rb : Json) (result : String) : Py Bool := do
  (← rb.listItem "reverified").anyM fun r => do
    return decide ((← r.item "result") = .str result)

/-- `_names_claim` -/
def namesClaim (claimId rationale : String) : Bool :=
  Regex.search (Regex.seq (Regex.notBehind AhrSchema.idPattern.idChar)
    (Regex.seq (Regex.literal claimId)
      (Regex.notAhead (Regex.char AhrSchema.idPattern.idChar)))) rationale

/-- `known.get(d)`: the read-back with this digest, if it is the latest of its author. -/
def AhrLog.known (log : AhrLog) (d : String) : Option Json :=
  (log.latestRb.reverse.find? fun e => e.2.digest == d).map (·.2.doc)

def passes (v : Json) : Py Bool := do
  let outcome ← v.item "outcome"
  return decide (outcome = .str "pass" ∨ outcome = .str "pass_with_flags")

/-- A verdict that makes later ones need a human: a failure, or a judge with low confidence. -/
def raisesDoubt (v : Json) : Py Bool := do
  if (← v.item "outcome") = .str "fail" then return true
  if (← v.item "method") = .str "judge" then
    return decide ((← v.get "confidence") = some (.str "low"))
  return false

/-- The read-back is not ready, or leaves a requested re-verification open. -/
def reverificationOpen (rb handoff : Json) : Py Bool := do
  if (← rb.item "disposition") ≠ .str "ready" then return true
  let reverify ← reverifyOf handoff
  let reverified ← rb.listItem "reverified"
  let undone ← reverified.anyM fun r => do
    if reverify.contains (← r.strItem "claim_id") then
      let result ← r.item "result"
      return decide (result = .null ∨ result = .str "not_checked")
    else return false
  if undone then return true
  let names ← reverified.mapM (·.strItem "claim_id")
  return reverify.any (!names.contains ·)

/-- The ids of the entries the read-back's author could not check. -/
def uncheckable (rb : Json) : Py (List String) := do
  let entries ← (← rb.listItem "reverified").filterM fun r => do
    return decide ((← r.item "result") = .str "not_checkable")
  entries.mapM (·.strItem "claim_id")

/-- At critical a passing verdict needs re-verification to be complete. -/
def leavesOpen (s : Step) (rb : Json) (passing : Bool) : Py Bool :=
  if decide (s.tier = "critical") && passing then reverificationOpen rb s.handoff else pure false

/-- `readback_verified`: a verdict on a read-back. -/
def readbackVerified (log : AhrLog) (s : Step) : Py Verdict := do
  if log.state ≠ some .offered ∧ log.state ≠ some .accepted then
    return (log, [s.fail "R-LC-2" "readback_verified is allowed only while offered or accepted"])
  let v ← s.ev.item "verification"
  let d ← v.strItem "readback_digest"
  match log.known d with
  | none =>
      return (log, [s.fail "R-RB-5"
        "verification names no read-back that is the latest of its author"])
  | some rb => do
      let critical := decide (s.tier = "critical")
      let method ← v.item "method"
      if critical && method == .str "deterministic" then
        return (log, [s.fail "R-RB-12" "at critical a verdict must use method judge or human"])
      let verifier ← v.item "verifier"
      let selfJudged := decide ((← (← rb.item "by").item "id") = .str s.actor)
      if decide ((← verifier.item "id") ≠ .str s.actor) ||
          decide ((← verifier.item "kind") ≠ s.actorKind) || selfJudged then
        return (log, [s.fail "R-RB-5"
          "the verifier must be the event actor and not the read-back author"])
      if !s.addressed && Dict.has log.latestRb s.actor then
        return (log, [s.fail "R-RB-5"
          "an unaddressed record's verifier must not have read it back"])
      if s.actor ≠ (s.verifierId.filter (· ≠ "")).getD s.sender then
        return (log, [s.fail "R-RB-5" ("only the designated verifier (or, if none is " ++
          "designated, the sender) may record a verdict")])
      let human := decide (method = .str "human")
      if human && (s.actorKind != .str "human" || s.verifierKind.any (· != s.actorKind)) then
        return (log, [s.fail "R-RB-9"
          "method 'human' requires a verifier principal of kind 'human'"])
      let passing ← passes v
      let unchecked ← uncheckable rb
      let rationale ← v.strItem "rationale"
      if critical && passing && human && unchecked.any (!namesClaim · rationale) then
        return (log, [s.fail "R-RB-9"
          "a human verdict must name each not_checkable claim_id in rationale"])
      if ← leavesOpen s rb passing then
        return (log, [s.fail "R-RB-11" ("at critical a passing verdict needs a ready read-back " ++
          "that completes re-verification")])
      if critical && passing && !human && (log.anyFail || !unchecked.isEmpty) then
        return (log, [s.fail "R-RB-9" "at critical this passing verdict needs method 'human'"])
      let doubt ← raisesDoubt v
      return ({ log with
        verdict := Dict.set log.verdict d v
        verifiers := log.verifiers.insert s.actor
        anyFail := log.anyFail || doubt }, [])

/-- A critical handoff to a named principal, under a new subject, that records this one. -/
def escalates (log : AhrLog) (s : Step) : Py Bool := do
  match s.record? with
  | none => return false
  | some doc =>
      if (← doc.get "type") ≠ some (.str "handoff") then return false
      if (← doc.get "tier") ≠ some (.str "critical") then return false
      if !(← isAddressed doc) then return false
      if !(← checkDoc lib doc none).isEmpty then return false
      if (← doc.item "subject") = (← s.handoff.item "subject") then return false
      let sender ← doc.item "from"
      if (← sender.item "id") ≠ .str s.actor then return false
      if (← sender.item "kind") ≠ s.actorKind then return false
      if s.completer = some s.actor then return false
      let points ← (← doc.listItem "next_read").anyM fun p => do
        return decide ((← p.get "kind") = some (.str "record") ∧
          (← p.get "digest") = some (.str log.recordDigest))
      if !points then return false
      let handoffId ← s.handoff.item "handoff_id"
      let listed ← (← doc.listGet "supersedes").anyM fun p => do
        return decide ((← p.item "handoff_id") = handoffId)
      return !listed

/-- An addressed record may be declined freely, an unaddressed one only to escalate. -/
def mayDecline (log : AhrLog) (s : Step) : Py Bool :=
  if s.addressed then pure true else escalates lib log s

/-- `declined`: a decline, which on an unaddressed record must escalate. -/
def declined (log : AhrLog) (s : Step) : Py Verdict := do
  if log.state ≠ some .offered ∨ !s.mayReceive then
    return (log, [s.fail "R-LC-2"
      ("declined must follow offered and come from the addressed receiver or an in-scope " ++
        "principal")])
  if !(← mayDecline lib log s) then
    return (log, [s.fail "R-TIER-5"
      ("an unaddressed record is declined only to escalate, with ref to a critical handoff to " ++
        "a named principal, under a new subject and not listing the original")])
  return ({ log with state := some .declined }, [])

/-- `{"handoff_id": ..., "digest": ...} in doc.get("supersedes", [])` -/
def listsRecord (doc : Json) (handoffId : Json) (recordDigest : String) : Py Bool := do
  return (← doc.listGet "supersedes").any
    (Json.eqv (.obj [("handoff_id", handoffId), ("digest", .str recordDigest)]) ·)

/-- An onward handoff that does not carry this record on. -/
def onwardMismatch (log : AhrLog) (s : Step) (doc : Json) : Py Bool := do
  if (← doc.item "subject") ≠ (← s.handoff.item "subject") then return true
  let sender ← doc.item "from"
  if (← sender.item "id") ≠ .str s.actor then return true
  if (← sender.item "kind") ≠ s.actorKind then return true
  if !(← listsRecord doc (← s.handoff.item "handoff_id") log.recordDigest) then return true
  if (← tierRank (← doc.strItem "tier")) < (← tierRank s.tier) then return true
  return !(← checkDoc lib doc none).isEmpty

/-- The onward handoff a report refers to: none, one that is a valid record, or one that is not. -/
def onwardHandoff (s : Step) : Py (Option (Json × Bool)) := do
  match s.record? with
  | none => return none
  | some doc => return some (doc, (← checkDoc lib doc none).isEmpty)

/-- The author's latest read-back, if any, has an entry with this result. -/
def latestHasResult (log : AhrLog) (author result : String) : Py Bool :=
  match Dict.lookup log.latestRb author with
  | some mine => anyResult mine.doc result
  | none => pure false

/-- The `ref` is an AHR record other than a handoff. -/
def refersToNonHandoff (s : Step) : Py Bool :=
  match s.record? with
  | some doc => do return decide ((← doc.get "type") ≠ some (.str "handoff"))
  | none => pure false

/-- The onward handoff is critical and names its receiver. -/
def onwardEscalates (onward : Option (Json × Bool)) : Py Bool :=
  match onward with
  | some (doc, _) => do
      if (← doc.item "tier") = .str "critical" then isAddressed doc else return false
  | none => pure false

/-- There is an onward handoff, and it does not carry this record on. -/
def onwardUnfit (log : AhrLog) (s : Step) (onward : Option (Json × Bool)) : Py Bool :=
  match onward with
  | some (doc, _) => onwardMismatch lib log s doc
  | none => pure false

/-- A report of outcome `met` over a contradicted claim. -/
def metDespiteContradiction (log : AhrLog) (s : Step) (met : Bool) : Py Bool :=
  if met then latestHasResult log s.actor "contradicted" else pure false

/-- `reported`: a report, optionally with an onward handoff. -/
def reported (log : AhrLog) (s : Step) : Py Verdict := do
  if log.state ≠ some .accepted ∨ log.receiver ≠ some s.actor then
    return (log, [s.fail "R-LC-2" "reported must follow accepted and come from the receiver"])
  let outcome ← s.ev.item "outcome"
  let met := decide (outcome = .str "met")
  if ← metDespiteContradiction log s met then
    return (log, [s.fail "R-RB-4"
      "outcome 'met' while the receiver's latest read-back lists a contradicted claim"])
  if ← refersToNonHandoff s then
    return (log, [s.fail "R-LC-2"
      "a reported ref may be an AHR record only when it is an onward handoff"])
  let onward ← onwardHandoff lib s
  if onward.any (!·.2) then
    return (log, [s.fail "R-LC-12" "an onward handoff in a report must be a valid record"])
  if met && onward.isSome then
    return (log, [s.fail "R-LC-12" "a report with outcome 'met' must not ref an onward handoff"])
  if outcome == .str "escalated" && !(← onwardEscalates onward) then
    return (log, [s.fail "R-TIER-5"
      "an escalated report must reference a critical handoff to a named principal"])
  if ← onwardUnfit lib log s onward then
    return (log, [s.fail "R-LC-12" ("an onward handoff in a report must be valid, from the " ++
      "receiver, same subject, no lower tier, and list this record in supersedes")])
  return ({ log with state := some .reported }, [])

/-- The violation of a superseding record, if any. -/
def supersessionError (log : AhrLog) (s : Step) : Py (Option String) := do
  let invalid := some "ref must be a valid, digest-bound superseding handoff"
  if (← (← s.ev.item "ref").get "media_type") ≠ some (.str ahrMedia) then return invalid
  match s.record? with
  | none => return invalid
  | some new =>
      if (← new.get "type") ≠ some (.str "handoff") then return invalid
      if !(← checkDoc lib new none).isEmpty then return invalid
      if !(← listsRecord new (← s.handoff.item "handoff_id") log.recordDigest) then
        return some "the new record does not list this record and its digest in supersedes"
      let sender ← new.item "from"
      let foreign :=
        decide (s.actor ≠ s.sender) || decide ((← sender.item "id") ≠ .str s.actor) ||
          decide ((← sender.item "kind") ≠ s.actorKind) ||
          decide ((← new.item "subject") ≠ (← s.handoff.item "subject"))
      if foreign then
        return some ("only the sender may supersede its offered record, with a record it sends " ++
          "for the same subject")
      if (← tierRank (← new.strItem "tier")) < (← tierRank s.tier) then
        return some "a superseding record must not have a lower tier"
      return none

/-- `superseded`: an offered record ends because its sender listed it in a new record. -/
def superseded (log : AhrLog) (s : Step) : Py Verdict := do
  if log.state ≠ some .offered then
    return (log, [s.fail "R-SUP-2"
      "an accepted record ends by reported/completed, not superseded (R-LC-12)"])
  match ← supersessionError lib log s with
  | some msg => return (log, [s.fail "R-SUP-2" msg])
  | none => return ({ log with state := some .superseded }, [])

/-- `offered` -/
def offered (log : AhrLog) (s : Step) : Py Verdict := do
  let errs := whenBad (decide (log.state ≠ none ∨ s.actor ≠ s.sender))
    (s.fail "R-LC-2" "offered must be the first event and come from the sender")
  if s.expires.any (decide <| · ≤ s.at_) then
    return (log, errs ++ [s.fail "R-TIME-2" "offered is stored at or after expires_at"])
  return ({ log with state := some .offered }, errs)

/-- `check_doc` of a read-back; an unusable one is a finding, not an error. -/
def readBackProblems (doc handoff : Json) : Py (List String) :=
  match checkDoc lib doc (some handoff) with
  | .ok problems => pure problems
  | .error (.ahrInputError msg) => pure ["R-DOC-1 read-back unusable: " ++ msg]
  | .error (.keyError key) => pure ["R-DOC-1 read-back unusable: " ++ reprStr lib key]
  | .error .typeError => pure ["R-DOC-1 read-back unusable: "]
  | .error e => throw e

/-- The author's previous read-back is dated no earlier. -/
def isStale (log : AhrLog) (author : String) (made : Instant) : Py Bool :=
  match Dict.lookup log.latestRb author with
  | some mine => do return decide (made ≤ (← instant (← mine.doc.strItem "at")))
  | none => pure false

/-- `read_back` -/
def readBack (log : AhrLog) (s : Step) : Py Verdict := do
  if (log.state ≠ some .offered ∧ log.state ≠ some .accepted) ∨ !s.mayReceive ∨
      log.receiver.any (· != s.actor) then
    return (log, [s.fail "R-LC-2"
      "read_back must come from the (prospective) receiver while offered or accepted"])
  let ref ← s.ev.item "ref"
  let media ← ref.get "media_type"
  let unusable := [s.fail "R-LC-2"
    "read_back ref must be an AHR read-back record (media_type application/vnd.ahr+json)"]
  match s.record? with
  | none => return (log, unusable)
  | some doc => do
      if media ≠ some (.str ahrMedia) ∨ (← doc.get "type") ≠ some (.str "readback") then
        return (log, unusable)
      let author := ((← doc.get "by").filter Json.isDict).getD (.obj [])
      let foreign := decide ((← author.get "id") ≠ some (.str s.actor)) ||
        decide ((← author.get "kind") ≠ some s.actorKind)
      let errs := whenBad foreign (s.fail "R-LC-2" "read-back author differs from event actor")
      if !s.addressed && (log.verifiers.contains s.actor || s.verifierId == some s.actor) then
        return (log, errs ++ [s.fail "R-RB-5"
          "a principal that verified this unaddressed record cannot also read it back"])
      let problems ← readBackProblems lib doc s.handoff
      if !problems.isEmpty then
        return (log, errs ++ problems.map fun p => s.tag ++ ": readback " ++ p)
      let made ← instant (← doc.strItem "at")
      let errs := errs ++ whenBad (decide (s.at_ < made))
        (s.fail "X-16" "read-back is dated after the event that records it")
      let d ← ref.strItem "digest"
      let (prior, rbIds) := Dict.setDefault log.rbIds (← doc.strItem "readback_id") d
      let log := { log with rbIds }
      if prior ≠ d then
        return (log, errs ++ [s.fail "R-DOC-2"
          "a second read-back reuses an existing readback_id with a different digest"])
      if log.seenRbDigests.contains d || (← isStale log s.actor made) then
        return (log, errs ++ [s.fail "R-LC-2"
          "a read_back must reference a new read-back, dated after the author's previous one"])
      return ({ log with
        seenRbDigests := log.seenRbDigests ++ [d]
        latestRb := Dict.set log.latestRb s.actor ⟨d, doc, s.at_⟩ }, errs)

/-- `answered` -/
def answered (log : AhrLog) (s : Step) : Py Verdict :=
  if s.actor ≠ s.sender ∨ (log.state ≠ some .offered ∧ log.state ≠ some .accepted) then
    pure (log, [s.fail "R-LC-8" "answered must come from the sender while offered or accepted"])
  else pure (log, whenBad s.record?.isSome (s.fail "R-DOC-2"
    "an answered ref carries explanation, never an AHR record; supersede instead"))

/-- The verdict admits a critical record: passing, by a judge or a human, by a human when the
confidence is low or an earlier doubt needs one. -/
def admissible (v : Json) (needsHuman : Bool) : Py Bool := do
  if !v.truthy then return false
  let human := decide ((← v.item "method") = .str "human")
  if !(← passes v) then return false
  if !human && decide ((← v.item "method") ≠ .str "judge") then return false
  if decide ((← v.get "confidence") = some (.str "low")) && !human then return false
  return !(needsHuman && !human)

/-- A verdict admits the critical record. -/
def admits (log : AhrLog) (mine : ReadBack) (needsHuman : Bool) : Py Bool :=
  match Dict.lookup log.verdict mine.digest with
  | some v => admissible v needsHuman
  | none => pure false

/-- The rule a missing or inadmissible verdict breaks. -/
def verdictRule (log : AhrLog) (mine : ReadBack) (needsHuman : Bool) : Py String :=
  match (Dict.lookup log.verdict mine.digest).filter Json.truthy with
  | some v => do
      if needsHuman && decide ((← v.item "method") ≠ .str "human") then return "R-RB-9"
      else return "R-LC-10"
  | none => pure "R-LC-10"

/-- The violations of the acceptance gate, for a record that needs a read-back. -/
def readbackGate (log : AhrLog) (s : Step) : Py (List String) :=
  match Dict.lookup log.latestRb s.actor with
  | none => pure [s.fail "R-LC-11" "a read-back by the receiver must precede accepted"]
  | some mine => do
      let disposition ← mine.doc.item "disposition"
      if decide (disposition ≠ .str "ready") || (← anyResult mine.doc "contradicted") then
        return [s.fail "R-LC-11"
          "the receiver's latest read-back has open questions or contradictions"]
      if s.tier ≠ "critical" then return []
      let uncheckable ← anyResult mine.doc "not_checkable"
      let needsHuman := log.anyFail || uncheckable
      if ← admits log mine needsHuman then return []
      let rule ← verdictRule log mine needsHuman
      return [s.fail rule ("critical: the latest verdict on the receiver's latest read-back " ++
        "is not an admissible passing verdict")]

/-- The tier or the record itself asks for a read-back before acceptance. -/
def readbackRequired (handoff : Json) (tier : String) : Py Bool := do
  if tier = "standard" ∨ tier = "critical" then return true
  return Json.truthy? (← (← handoff.getDict "readback").get "required")

def acceptanceGate (log : AhrLog) (s : Step) : Py (List String) := do
  if ← readbackRequired s.handoff s.tier then readbackGate log s else return []

/-- The latest verdict on the author's latest read-back is a failure. -/
def latestFailed (log : AhrLog) (author : String) : Py Bool :=
  match (Dict.lookup log.latestRb author).bind fun mine => Dict.lookup log.verdict mine.digest with
  | some v => do return v.truthy && decide ((← v.item "outcome") = .str "fail")
  | none => pure false

/-- `accepted` -/
def accepted (log : AhrLog) (s : Step) : Py Verdict := do
  if log.state ≠ some .offered ∨ !s.mayReceive then
    return (log, [s.fail "R-LC-2"
      "accepted must follow offered and come from a permitted receiver"])
  if !s.addressed && s.verifierId == some s.actor then
    return (log, [s.fail "R-RB-5" "the designated verifier cannot accept an unaddressed record"])
  if !s.addressed && s.completer == some s.actor then
    return (log, [s.fail "R-LC-9"
      "the designated completer cannot accept (it could never complete)"])
  let unread := !s.addressed && !log.latestRb.isEmpty && !Dict.has log.latestRb s.actor
  let errs := whenBad unread
    (s.fail "R-LC-9" "another principal read back this unaddressed record first")
  if ← latestHasResult log s.actor "contradicted" then
    return (log, errs ++ [s.fail "R-RB-4"
      "the receiver's latest read-back lists a contradicted claim"])
  if ← latestFailed log s.actor then
    return (log, errs ++ [s.fail "R-LC-15"
      "the latest verdict on the receiver's latest read-back is fail"])
  let gate ← acceptanceGate log s
  if !gate.isEmpty then return (log, errs ++ gate)
  if (← instant (← s.ev.strItem "effective_at")) ≠ s.at_ then
    return (log, errs ++ [s.fail "R-LC-6"
      "the store sets effective_at equal to the stored at of the accepted event"])
  return ({ log with state := some .accepted, receiver := some s.actor }, errs)

/-- `completed` -/
def completed (log : AhrLog) (s : Step) : Py Verdict :=
  let errs :=
    if log.state ≠ some .reported then [s.fail "R-LC-2" "completed must follow reported"]
    else if s.completer ≠ some s.actor then
      [s.fail "R-LC-5" "only the completer may complete (unaddressed records need to.completer)"]
    else whenBad (log.receiver == some s.actor)
      (s.fail "R-LC-5" "the receiver cannot complete its own handoff")
  pure ({ log with state := some .completed }, errs)

/-- `withdrawn` -/
def withdrawn (log : AhrLog) (s : Step) : Py Verdict :=
  if s.actor ≠ s.sender ∨ log.state ≠ some .offered then
    pure (log, [s.fail "R-LC-2" "withdrawn must come from the sender while offered"])
  else pure ({ log with state := some .withdrawn }, [])

/-- `expired` -/
def expired (log : AhrLog) (s : Step) : Py Verdict :=
  if log.state ≠ some .offered ∨ !s.expires.any (decide <| · ≤ s.at_) ∨
      s.actorKind ≠ .str "service" then
    pure (log, [s.fail "R-LC-2"
      "expired applies only to an offered record at or after expires_at, by the store"])
  else pure ({ log with state := some .expired }, [])

/-- The branch for the event's kind. An unknown kind, which the schema excludes, does nothing. -/
def runArm (log : AhrLog) (s : Step) : Py Verdict :=
  match s.kind with
  | "readback_verified" => readbackVerified log s
  | "declined" => declined lib log s
  | "reported" => reported lib log s
  | "superseded" => superseded lib log s
  | "offered" => offered log s
  | "read_back" => readBack lib log s
  | "answered" => answered log s
  | "accepted" => accepted log s
  | "completed" => completed log s
  | "withdrawn" => withdrawn log s
  | "expired" => expired log s
  | _ => pure (log, [])

/-- `f"event seq={ev.get('seq')} {ev.get('event')}"` -/
def eventTag (ev : Json) : String :=
  "event seq=" ++ formatValue lib (ev.get? "seq") ++ " " ++ formatValue lib (ev.get? "event")

/-- `may_receive`: the addressed principal, or anyone but the sender. -/
def isPermitted (recipient : Json) (addressed : Bool) (sender actor : String) : Py Bool := do
  if addressed then return decide ((← recipient.get "id") = some (.str actor))
  return decide (actor ≠ sender)

/-- The locals of an event that passed its own check. -/
def stepLocals (handoff ev : Json) : Py Step := do
  let tier ← handoff.strItem "tier"
  let sender ← senderOf handoff
  let recipient ← handoff.item "to"
  let addressed ← isAddressed handoff
  let completer ← completerOf handoff
  let verifier ← verifierOf handoff
  let verifierId ← optStr (← verifier.get "id")
  let verifierKind := (← verifier.get "kind").filter Json.truthy
  let kind ← ev.strItem "event"
  let principal ← ev.item "actor"
  let actor ← principal.strItem "id"
  let actorKind ← principal.item "kind"
  let at_ ← instant (← ev.strItem "at")
  let expires ← expiresAt handoff
  let mayReceive ← isPermitted recipient addressed sender actor
  return { ev, kind, resolved := none, actor, actorKind, at_, tag := eventTag lib ev, handoff, tier,
           sender, addressed, completer, verifierId, verifierKind, expires, mayReceive }

/-- `prev_event_digest` is there and is not the digest of the previous stored event. -/
def breaksChain (log : AhrLog) (ev : Json) : Py Bool := do
  match ev.get? "prev_event_digest" with
  | none => return false
  | some d => match log.prevEvent with
    | none => return true
    | some prev => return decide (d ≠ .str (← digest lib prev))

/-- The violation of the event's `ref`, if any. -/
def refError (ev : Json) (target : Option Target) : Py (Option (String × String)) := do
  match ev.get? "ref" with
  | none => return none
  | some ref => match target with
    | none => return some ("R-INT-7", "ref cannot be resolved")
    | some target =>
        let plain := decide ((← ref.get "media_type") ≠ some (.str ahrMedia))
        let hidden := match target.resolved with
          | .bytes raw => looksAhr lib raw
          | .record _ => false
        if plain && hidden then
          return some ("R-INT-7",
            "ref targets an AHR record but lacks media_type application/vnd.ahr+json")
        match (← ref.get "digest").filter Json.truthy with
        | some d =>
            if d ≠ .str target.digest then
              return some ("R-INT-6", "ref.digest does not match the referenced content")
            return none
        | none => return none

/-- `AhrLog.step`: admit one stored event; the violations are empty when it conforms. -/
def step (log : AhrLog) (ev : Json) (target : Option Target) : Py Verdict := do
  let n := log.count
  let log := { log with count := n + 1 }
  if !ev.isDict then
    return (log, ["event line " ++ toString (n + 1) ++ ": R-DOC-1 an event must be a JSON object"])
  let tag := eventTag lib ev
  let bad ← checkDoc lib ev none
  if !bad.isEmpty then return (log, bad.map fun e => tag ++ ": " ++ e)
  let handoff := log.handoff
  let kinds ← recordedKinds handoff
  let s ← stepLocals lib handoff ev
  if (Dict.lookup kinds s.actor).any (· != s.actorKind) then
    return (log, ["R-ROLE-2 " ++ tag ++ ": actor kind differs from the kind this handoff " ++
      "records for " ++ reprStr lib s.actor])
  let eventId ← ev.strItem "event_id"
  let owner := Dict.lookup log.seenIds eventId
  if owner.isSome then
    return (log, [(if owner = some s.actor then "X-15 " else "R-LC-1 ") ++ tag ++
      ": duplicate event_id; a retry must return the stored event, and another actor's reuse " ++
      "is a conflict"])
  let log := { log with seenIds := Dict.set log.seenIds eventId s.actor }
  let chain ← breaksChain lib log ev
  let errs := whenBad chain
    ("R-LC-13 " ++ tag ++ ": prev_event_digest does not match the previous stored event")
  let log := { log with prevEvent := some ev }
  if (← ev.item "handoff_id") ≠ (← handoff.item "handoff_id") then
    return (log, errs ++ [s.fail "X-15" "event names another handoff"])
  let created ← instant (← handoff.strItem "created_at")
  let errs := errs ++
    whenBad (decide ((← ev.item "seq") ≠ .int (n + 1)))
      (s.fail "X-15" ("seq must be " ++ toString (n + 1) ++ " (dense from 1 in append order)")) ++
    whenBad (log.prevAt.any (decide <| s.at_ < ·))
      (s.fail "X-16" "stored time decreases along seq") ++
    whenBad (decide (s.at_ < created))
      (s.fail "X-16" "event is stored before the handoff was created") ++
    whenBad (decide ((← ev.item "record_digest") ≠ .str log.recordDigest))
      (s.fail "R-LC-1" "record_digest is not the digest of handoff.json")
  let log := { log with prevAt := some s.at_ }
  if log.state.any LogState.isTerminal then
    return (log, errs ++ [s.fail "R-LC-2" ("no event may follow terminal state " ++
      reprStr lib ((log.state.map LogState.text).getD ""))])
  match ← refError lib ev target with
  | some (rule, msg) => return (log, errs ++ [s.fail rule msg])
  | none =>
      let lapsed := s.expires.any (decide <| · ≤ s.at_)
      if log.state = some .offered ∧ lapsed ∧ s.kind ≠ "expired" then
        return (log, errs ++ [s.fail "R-TIME-2" (s.kind ++ " on an offered record at or after " ++
          "expires_at; the store appends expired first")])
      let resolved := if ev.has "ref" then target.map (·.resolved) else none
      let (log, more) ← runArm lib log { s with resolved }
      return (log, errs ++ more)

/-- `start`: a fresh log for a valid handoff, or the findings. -/
def start (handoff : Json) : Py (Option AhrLog × List String) := do
  let errs := (← checkDoc lib handoff none).map ("handoff: " ++ ·)
  if !errs.isEmpty then return (none, errs)
  return (some { handoff, recordDigest := ← digest lib handoff }, [])

end

end TrwMcp.Comms
