import TrwMcp.Handoff.Jcs
import TrwMcp.Handoff.Time

/-!
# The static cross-field rules

`checkHandoff` and `checkReadback`, the X-rules of one record beyond its schema. Each check returns
the texts it adds, in order; each text starts with its rule. Both assume the record passed the
schema: where it did not, a field access raises as it does in Python.
-/

namespace TrwMcp.Handoff

open Lib

section

variable (lib : Stdlib)

/-! ## Normalization -/

def placeholders : List String :=
  ["", "n a", "na", "none", "nothing", "tbd", "todo", "unknown", "checked", "ok"]

/-- `_WHITESPACE`: Unicode White_Space. -/
def whitespace : List Char :=
  ['\t', '\n', '\x0b', '\x0c', '\r', ' ', '\x85', '\xa0', '\u1680', '\u2000', '\u2001', '\u2002',
    '\u2003', '\u2004', '\u2005', '\u2006', '\u2007', '\u2008', '\u2009', '\u200a', '\u2028',
    '\u2029', '\u202f', '\u205f', '\u3000']

def fillers : List Char := ['\u3164', '\u1160', '\u115f', '\uffa0']

/-- `_SEVERITY` -/
def severityRank (severity : String) : Py Nat :=
  match severity with
  | "low" => pure 0
  | "medium" => pure 1
  | "high" => pure 2
  | _ => throw (.keyError severity)

/-- The first letter of a character's category is one of `letters`. -/
def categoryIn (letters : List Char) (c : Char) : Bool :=
  (lib.category c).toList.head?.any letters.contains

/-- `norm`: NFKC, casefold, no punctuation, symbol or format character, single blanks. -/
def norm (text : String) : String :=
  let kept := (lib.casefold (lib.nfkc text)).toList.filter fun c =>
    !categoryIn lib ['P', 'S'] c && lib.category c != "Cf"
  let spaced := kept.map fun c => if whitespace.contains c then ' ' else c
  " ".intercalate (((spaced.splitOn ' ').filter (!·.isEmpty)).map String.ofList)

/-- `visible`: at least one character outside the categories C, M, P, S and Z and the fillers. -/
def visible (text : String) : Bool :=
  (lib.nfkc text).toList.any fun c =>
    !categoryIn lib ['C', 'M', 'P', 'S', 'Z'] c && !fillers.contains c

def isPlaceholder (text : String) : Bool := placeholders.contains (norm lib text)

/-- `repr(text)` -/
def reprStr (text : String) : String := lib.repr (.str text)

/-- The text of a check, if it failed. -/
def whenBad (bad : Bool) (text : String) : List String := if bad then [text] else []

theorem whenBad_eq_nil {c : Bool} {t : String} : whenBad c t = [] ↔ c = false := by
  cases c <;> simp [whenBad]

/-! ## The handoff -/

/-- `{c["id"]: c for c in doc["claims"]}` -/
def claimsById (doc : Json) : Py (List (String × Json)) := do
  let pairs ← (← doc.listItem "claims").mapM fun c => do return (← c.strItem "id", c)
  return Dict.ofPairs pairs

/-- `doc["risks"]` when it is a list, else none. -/
def riskList (doc : Json) : Py (List Json) := do
  match ← doc.item "risks" with
  | .arr risks => pure risks
  | _ => pure []

/-- `doc.get("readback", {}).get("reverify", [])` -/
def reverifyOf (doc : Json) : Py (List String) := do
  (← (← doc.getDict "readback").listGet "reverify").mapM Json.asStr

/-- `action.get("depends_on", [])` -/
def dependsOn (action : Json) : Py (List String) := do
  (← action.listGet "depends_on").mapM Json.asStr

/-- `sorted(set(xs))` -/
def sortedSet (xs : List String) : List String := xs.dedup.insertionSort (· ≤ ·)

def handoffIds (doc : Json) (claims : List (String × Json)) : Py (List String) := do
  let actions ← doc.listItem "next_actions"
  let claimIds ← (← doc.listItem "claims").mapM (·.strItem "id")
  let actionIds ← actions.mapM (·.strItem "id")
  let riskIds ← (← riskList doc).mapM (·.strItem "id")
  let requested ← reverifyOf doc
  let isClaim := fun cid => claims.any (·.1 == cid)
  let unknownDeps ← actions.mapM fun action => do
    let bad := (← dependsOn action).filter (!isClaim ·)
    let name ← action.strItem "id"
    return bad.map fun cid =>
      "X-3 next_actions " ++ reprStr lib name ++ " depends_on unknown claim " ++ reprStr lib cid
  let errs :=
    whenBad (decide ¬(claimIds ++ actionIds ++ riskIds).Nodup)
      "X-2 claim, action and risk ids must be unique within a record" ++
    whenBad (decide ¬requested.Nodup) "X-3 readback.reverify repeats a claim id" ++
    (requested.filter (!isClaim ·)).map (fun cid =>
      "X-3 readback.reverify names " ++ reprStr lib cid ++
        ", which is not a claim in this record") ++
    unknownDeps.flatten
  if (← doc.item "tier") = .str "critical" then
    let verified ← claims.filterM fun m => do
      return decide ((← m.2.item "label") = .str "verified")
    let deps ← actions.mapM dependsOn
    let want := verified.map (·.1) ++ deps.flatten
    let missing := sortedSet (want.filter (!requested.contains ·))
    return errs ++ whenBad (!missing.isEmpty)
      ("X-4 critical: readback.reverify must include every verified claim and every " ++
        "claim any next action depends on; missing " ++ lib.repr (.arr (missing.map .str)))
  else return errs

/-- The kind first recorded for each id, and a text for every principal with another one. -/
@[grind =] def kindConflicts (seen : List (String × Json)) : List Json → Py (List String)
  | [] => pure []
  | pr :: prs => do
      let name ← pr.strItem "id"
      let kind ← pr.item "kind"
      let first := (Dict.lookup seen name).getD kind
      let rest ← kindConflicts (if (Dict.lookup seen name).isSome then seen
        else seen ++ [(name, kind)]) prs
      return whenBad (first != kind)
        ("X-21 principal id " ++ reprStr lib name ++ " appears with two different kinds") ++ rest

/-- An addressed handoff that names its sender as receiver. -/
def isSelfAddressed (recipient sender : Json) : Py Bool := do
  if (← recipient.get "kind") = some (.str "unaddressed") then return false
  return decide ((← recipient.item "id") = (← sender.item "id"))

def handoffPrincipals (doc : Json) : Py (List String) := do
  let recipient ← doc.item "to"
  let sender ← doc.item "from"
  let selfAddressed ← isSelfAddressed recipient sender
  let verifier ← (← doc.getDict "readback").get "verifier"
  let verifiers := (verifier.filter Json.truthy).toList
  let receiverVerifies ← verifiers.anyM fun v => do
    return decide ((← recipient.get "id") = some (← v.item "id"))
  let receiver := if Json.truthy? (← recipient.get "id") then [recipient] else []
  let completer := ((← recipient.get "completer").filter Json.truthy).toList
  let kinds ← kindConflicts lib [] (sender :: receiver ++ completer ++ verifiers)
  return whenBad selfAddressed "X-17 an addressed handoff cannot name its sender as receiver" ++
    whenBad receiverVerifies "X-17 the designated verifier cannot be the receiver" ++ kinds

def badEvidenceText (ev : Json) : Py Bool := do
  ["procedure", "scope"].anyM fun k => do
    let text ← ev.strItem k
    return !visible lib text || isPlaceholder lib text

/-- `doc[name]` when it is a dict, for the three sections that may be `none_known`. -/
def noneKnownSections (doc : Json) : Py (List (String × Json)) := do
  let sections ← ["not_done", "risks", "unknowns"].mapM fun name => do
    return (name, ← doc.item name)
  return sections.filter (·.2.isDict)

def handoffTexts (doc : Json) (claims : List (String × Json)) : Py (List String) := do
  let claimList ← doc.listItem "claims"
  let objective ← doc.item "objective"
  let claimTexts ← claimList.mapM (·.strItem "text")
  let goal ← objective.strItem "goal"
  let doneWhen ← (← objective.listItem "done_when").mapM Json.asStr
  let bases ← claimList.mapM fun c => do ((← c.get "basis").getD (.str "x")).asStr
  let rollbacks ← ((← doc.listItem "next_actions").filter (·.has "rollback")).mapM fun a => do
    (← a.item "rollback").strItem "procedure"
  let sections ← noneKnownSections doc
  let checked ← sections.mapM fun m => m.2.strItem "checked"
  let constraints ← doc.get "constraints"
  let constraintsChecked ← match constraints with
    | some (.obj ms) => do pure [← (Json.obj ms).strItem "checked"]
    | _ => pure []
  let constraintList := match constraints with
    | some (.arr cons) => cons
    | _ => []
  let texts := claimTexts ++ goal :: doneWhen ++ bases ++ rollbacks ++ checked ++ constraintsChecked
  let excerpts ← constraintList.filterM fun con => do
    if con.isDict then return Json.truthy? (← con.get "excerpt") && !con.has "source"
    else return false
  let sectionErrs ← sections.mapM fun m => do
    return whenBad (isPlaceholder lib (← m.2.strItem "checked"))
      ("X-12 " ++ m.1 ++ ".checked is a placeholder, not a description of a check (R-EMP-2)")
  let claimErrs ← claims.mapM fun m => do
    let bad ← (← m.2.listGet "evidence").filterM (badEvidenceText lib)
    let basis ← m.2.get "basis"
    let badBasis ← basis.toList.anyM fun b => do return isPlaceholder lib (← b.asStr)
    return bad.map (fun _ => "X-12 claim " ++ reprStr lib m.1 ++
        " evidence procedure or scope is empty or a placeholder") ++
      whenBad badBasis ("X-12 claim " ++ reprStr lib m.1 ++ " basis is a placeholder (R-CLM-3)")
  return whenBad (constraintsChecked.any (isPlaceholder lib))
      "X-12 constraints.checked is a placeholder (R-EMP-2)" ++
    whenBad (!texts.all (visible lib)) "X-12 a required text field has no visible content" ++
    excerpts.map (fun _ => "X-12 an excerpted constraint needs a digest-bound source") ++
    sectionErrs.flatten ++ claimErrs.flatten

/-- `expires_at` is given and not later than the creation. -/
def expiresEarly (doc : Json) (created : Instant) : Py Bool := do
  match (← doc.get "expires_at").filter Json.truthy with
  | some v => return decide ((← instant (← v.asStr)) ≤ created)
  | none => return false

/-- At critical, the positions of the pointers without a digest. -/
def barePointers (doc : Json) : Py (List Nat) := do
  if (← doc.item "tier") = .str "critical" then
    return ((← doc.listItem "next_read").zipIdx.filter (!·.1.has "digest")).map (·.2)
  return []

/-- `check_handoff` -/
def checkHandoff (doc : Json) : Py (List String) := do
  let claims ← claimsById doc
  let ids ← handoffIds lib doc claims
  let created ← instant (← doc.strItem "created_at")
  let expires ← expiresEarly doc created
  let asOf ← instant (← (← doc.item "as_of").strItem "at")
  let principals ← handoffPrincipals lib doc
  let bare ← barePointers doc
  let listed ← (← doc.listGet "supersedes").mapM (·.strItem "handoff_id")
  let handoffId ← doc.strItem "handoff_id"
  let texts ← handoffTexts lib doc claims
  return ids ++ whenBad expires "X-5 expires_at must be later than created_at" ++
    whenBad (decide (created < asOf)) "X-6 as_of.at must not be later than created_at" ++
    principals ++
    whenBad (!bare.isEmpty)
      ("X-20 critical: every next_read pointer must carry a digest; missing at " ++
        lib.repr (.arr (bare.map fun i => .int i))) ++
    whenBad (decide ¬listed.Nodup || listed.contains handoffId)
      "X-19 supersedes must not repeat an entry or name the record itself" ++ texts

/-! ## The read-back -/

def readbackRestatements (doc handoff : Json) : Py (List String) := do
  let some first := (← handoff.listItem "next_actions").head? | throw .indexError
  let goal ← doc.strItem "goal_restated"
  let firstAction ← doc.item "first_action"
  let action ← firstAction.strItem "restated"
  let topRisk ← doc.item "top_risk"
  let risk ← topRisk.strItem "restated"
  let doneWhen ← if doc.has "done_when_restated" then do pure [← doc.strItem "done_when_restated"]
    else pure []
  let constraints ← (← doc.listGet "constraints_restated").mapM (·.strItem "text")
  let texts := [goal, action, risk] ++ doneWhen ++ constraints
  let otherAction := decide ((← firstAction.item "action_id") ≠ (← first.item "id"))
  let copiesAction := norm lib action == norm lib (← first.strItem "action")
  let copiesGoal := norm lib goal == norm lib (← (← handoff.item "objective").strItem "goal")
  let risks ← riskList handoff
  let rid ← topRisk.get "risk_id"
  let riskErrs ←
    if risks.isEmpty then
      pure (whenBad (rid.isSome && rid != some .null)
        "X-8 top_risk.risk_id given but the handoff lists no risks")
    else do
      -- a later risk of the same id wins, as in the dict the source builds
      let byId ← risks.reverse.filterM fun r => do return decide (some (← r.item "id") = rid)
      match byId.head? with
      | none => pure ["X-8 top_risk.risk_id must name a listed risk when risks are listed"]
      | some named => do
          let rank ← severityRank (← named.strItem "severity")
          let ranks ← risks.mapM fun r => do severityRank (← r.strItem "severity")
          let copiesRisk := norm lib risk == norm lib (← named.strItem "text")
          pure (whenBad (decide (rank < ranks.foldl max 0))
              "X-8 top_risk.risk_id must name a risk of the highest listed severity" ++
            whenBad copiesRisk "X-8 top_risk.restated copies the source after normalization")
  return whenBad (!texts.all (visible lib)) "X-12 a restatement has no visible content" ++
    whenBad otherAction "X-8 first_action.action_id is not next_actions[0].id" ++
    whenBad copiesAction "X-8 first_action.restated copies the source after normalization" ++
    whenBad copiesGoal "X-8 goal_restated copies the source after normalization" ++ riskErrs

/-- `r.get("evidence", {}).get("raw", {})` has a digest. -/
def rawHasDigest (r : Json) : Py Bool := do
  return (← (← r.getDict "evidence").getDict "raw").has "digest"

def readbackReverified (doc handoff : Json) (ready : Bool) : Py (List String) := do
  let claimIds ← (← handoff.listItem "claims").mapM (·.strItem "id")
  let reverified ← doc.listItem "reverified"
  let got ← reverified.mapM (·.strItem "claim_id")
  let pairs ← reverified.mapM fun r => do return (← r.strItem "claim_id", ← r.item "result")
  let results := Dict.ofPairs pairs
  let discrepancies ← doc.listItem "discrepancies"
  let critical := decide ((← handoff.item "tier") = .str "critical") && ready
  let criticalErrs ←
    if critical then do
      let need ← reverifyOf handoff
      let missing := (need.filter fun c => match Dict.lookup results c with
        | none => true
        | some result => result == .str "not_checked").insertionSort (· ≤ ·)
      let unproved ← reverified.filterM fun r => do
        if (← r.item "result") = .str "confirmed" then return !(← rawHasDigest r) else return false
      let names ← unproved.mapM (·.strItem "claim_id")
      pure (names.map (fun cid => "X-14 critical: confirmed claim " ++ reprStr lib cid ++
          " needs evidence.raw with a digest") ++
        whenBad (!missing.isEmpty) ("X-9 critical: requested re-verification not performed for " ++
          lib.repr (.arr (missing.map .str))))
    else pure []
  let named ← discrepancies.mapM (·.get "claim_id")
  let reads := (← handoff.listItem "next_read").length
  let outOfRange ← discrepancies.anyM fun d => do
    return decide ((reads : Int) ≤ (← ((← d.get "pointer_index").getD (.int 0)).asInt))
  let unknownClaim := named.any fun cid => match cid with
    | none | some .null => false
    | some (.str s) => !claimIds.contains s
    | some _ => true
  return whenBad (decide ¬got.Nodup || got.any (!claimIds.contains ·))
      "X-9 reverified claim ids must be unique and resolve in the handoff" ++
    criticalErrs ++
    whenBad outOfRange "X-11 a discrepancies pointer_index is out of range" ++
    whenBad unknownClaim "X-10 a discrepancies entry names a claim_id that is not in the handoff" ++
    (results.filter fun m => m.2 == .str "contradicted" && !named.contains (some (.str m.1))).map
      fun m => "X-10 contradicted claim " ++ reprStr lib m.1 ++
        " has no discrepancies entry with that claim_id"

/-- `xs[i]` for an integer `i` known to be in range. -/
def indexList (xs : List Json) (i : Int) : Py Json :=
  match xs[i.toNat]? with
  | some x => pure x
  | none => throw .indexError

def readbackPointers (doc handoff : Json) (ready : Bool) : Py (List String) := do
  let ptrs ← handoff.listItem "next_read"
  let criticalReady := decide ((← handoff.item "tier") = .str "critical") && ready
  let checks ← doc.listItem "pointer_checks"
  let indices ← checks.mapM (·.intItem "index")
  if indices.insertionSort (· ≤ ·) ≠ (List.range ptrs.length).map Int.ofNat then
    return ["X-11 pointer_checks must cover each next_read index exactly once"]
  let drifts ← (← doc.listItem "discrepancies").mapM (·.get "pointer_index")
  let errs ← checks.mapM fun pc => do
    let idx ← pc.intItem "index"
    let status ← pc.strItem "status"
    let ptr ← indexList ptrs idx
    let has := ptr.has "digest"
    let seen := status == "match" || status == "drift"
    let name := "pointer " ++ toString idx
    let observed ←
      if seen && has then
        pure (whenBad (decide ((← pc.item "observed_digest") = (← ptr.item "digest")) !=
            (status == "match"))
          ("X-11 " ++ name ++ ": status " ++ reprStr lib status ++
            " disagrees with observed_digest"))
      else pure (whenBad seen ("X-11 " ++ name ++ " has no digest, so status " ++
        reprStr lib status ++ " is impossible"))
    return observed ++
      whenBad (criticalReady && (status == "not_accessed" || status == "missing"))
        ("X-11 critical: " ++ name ++ " is " ++ reprStr lib status ++ " in a ready read-back") ++
      whenBad (criticalReady && status == "drift" && !drifts.contains (some (.int idx)))
        ("X-11 critical: drift on " ++ name ++
          " needs a discrepancies entry with that pointer_index") ++
      whenBad (status == "no_digest" && has)
        ("X-11 " ++ name ++ " carries a digest; status 'no_digest' is wrong")
  return errs.flatten

def readbackAuthorship (doc handoff : Json) : Py (List String) := do
  let author ← doc.item "by"
  let authorId ← author.item "id"
  let recipient ← handoff.item "to"
  let bySender := decide (authorId = (← (← handoff.item "from").item "id"))
  let notReceiver ←
    if (← recipient.get "kind") = some (.str "unaddressed") then pure false
    else if authorId ≠ (← recipient.item "id") then pure true
    else pure (decide ((← author.item "kind") ≠ (← recipient.item "kind")))
  let made ← instant (← doc.strItem "at")
  let created ← instant (← handoff.strItem "created_at")
  let reverified ← doc.listItem "reverified"
  let badTexts ← reverified.filterM fun r => do
    match ← r.get "evidence" with
    | some ev => if ev.truthy then badEvidenceText lib ev else pure false
    | none => pure false
  let foreign ← reverified.filterM fun r => do
    match ← r.get "evidence" with
    | some ev =>
        if !ev.truthy then pure false
        else if (← ev.get "producer") ≠ some authorId then pure true
        else do
          let t ← instant (← ev.strItem "at")
          pure (decide ¬(created ≤ t ∧ t ≤ made))
    | none => pure false
  let badNames ← badTexts.mapM (·.strItem "claim_id")
  let foreignNames ← foreign.mapM (·.strItem "claim_id")
  return whenBad bySender "X-13 the sender cannot author the read-back for its own handoff" ++
    whenBad notReceiver "X-13 read-back author is not the addressed receiver" ++
    whenBad (decide (made < created)) "X-13 read-back is earlier than the handoff's created_at" ++
    badNames.map (fun cid => "X-12 re-verification evidence for " ++ reprStr lib cid ++
      " has an empty or placeholder procedure or scope") ++
    foreignNames.map fun cid => "X-14 re-verification evidence for " ++ reprStr lib cid ++
      " must be produced by the read-back author between the handoff's created_at and the" ++
      " read-back's at"

/-- `check_readback` -/
def checkReadback (doc handoff : Json) : Py (List String) := do
  let bound ← doc.item "handoff"
  let binds ←
    if (← bound.item "handoff_id") ≠ (← handoff.item "handoff_id") then pure false
    else pure (decide ((← bound.item "digest") = .str (← digest lib handoff)))
  let ready := decide ((← doc.item "disposition") = .str "ready")
  let restatements ← readbackRestatements lib doc handoff
  let reverified ← readbackReverified lib doc handoff ready
  let pointers ← readbackPointers lib doc handoff ready
  let authorship ← readbackAuthorship lib doc handoff
  let constraints := match ← handoff.get "constraints" with
    | some (.arr cons) => cons.length
    | _ => 0
  let idx := (← (← doc.listGet "constraints_restated").mapM (·.intItem "index")).insertionSort
    (· ≤ ·)
  let critical := decide ((← handoff.item "tier") = .str "critical")
  let restated :=
    if critical && ready && decide (idx ≠ (List.range constraints).map Int.ofNat) then
      ["X-18 critical: constraints_restated must restate each handoff constraint index exactly" ++
        " once"]
    else whenBad (decide ¬idx.Nodup || idx.getLast?.any fun i => decide ((constraints : Int) ≤ i))
      "X-18 constraints_restated indices must be unique and name handoff constraints"
  return whenBad (!binds)
      "X-7 read-back does not bind to this exact handoff (handoff_id or digest mismatch)" ++
    restatements ++ reverified ++ pointers ++ authorship ++ restated

end

end TrwMcp.Handoff
